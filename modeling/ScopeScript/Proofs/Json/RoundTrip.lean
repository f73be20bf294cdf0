import ScopeScript.Json.Reader
import ScopeScript.Json.Writer
set_option autoImplicit false

/-!
# Json: written documents are read back

A document without numbers, in which no object has two members of one name, is read from its
indented text as it was.  What is read stops right behind the text whatever follows, so the parts of
a document are read one after the other.

The reader goes down with its fuel by every character of a string and by every item and member; the
length of what is written is always enough.
-/

namespace ScopeScript.Json

/-! ## Documents without numbers -/

mutual

/-- No numbers, and no object with two members of one name. -/
def Numberless : Json → Prop
  | .null | .bool _ | .string _ => True
  | .integer _ | .float _ => False
  | .array items => NumberlessItems items
  | .object members => (Entries.keys members).Nodup ∧ NumberlessMembers members

/-- All items are without numbers. -/
def NumberlessItems : List Json → Prop
  | [] => True
  | item :: rest => Numberless item ∧ NumberlessItems rest

/-- The values of all members are without numbers. -/
def NumberlessMembers : List (String × Json) → Prop
  | [] => True
  | (_, value) :: rest => Numberless value ∧ NumberlessMembers rest

end

/-! ## Gaps -/

theorem skipGap_cons {c : Char} {rest : List Char} (h : isGap c = false) :
    skipGap (c :: rest) = c :: rest := by
  simp [skipGap, h]

theorem skipGap_blank (rest : List Char) : skipGap (' ' :: rest) = skipGap rest := rfl

theorem mem_margin {level : Int} {c : Char} (h : c ∈ (Text.margin level).toList) : c = ' ' := by
  simp [Text.margin] at h
  exact h.2

/-- A new line is skipped up to its first character. -/
theorem skipGap_line (level : Int) {c : Char} (rest : List Char) (h : isGap c = false) :
    skipGap ('\n' :: ((Text.margin level).toList ++ c :: rest)) = c :: rest := by
  have blank : ∀ d ∈ (Text.margin level).toList, isGap d = true := by
    intro d hd
    rw [mem_margin hd]
    rfl
  exact (List.dropWhile_append_of_pos blank).trans (skipGap_cons h)

/-! ## Strings -/

theorem hexQuad?_append {text : List Char} {n : Nat} (rest : List Char)
    (h : hexQuad? text = some (n, [])) : hexQuad? (text ++ rest) = some (n, rest) := by
  unfold hexQuad? at h
  split at h
  · simp only [Option.bind_eq_bind, Option.bind_eq_some_iff, Option.some.injEq,
      Prod.mk.injEq] at h
    obtain ⟨high, hhigh, second, hsecond, third, hthird, low, hlow, rfl, rfl⟩ := h
    simp [hexQuad?, hhigh, hsecond, hthird, hlow]
  · cases h

/-- A control character is read from its code point. -/
theorem escapeChar?_control {c : Char} (control : c.toNat < 32) (rest : List Char) :
    escapeChar? ('u' :: (Text.hexDigits 4 c.toNat ++ rest)) = some (c, rest) := by
  have digits : ∀ n < 32, hexQuad? (Text.hexDigits 4 n) = some (n, []) := by decide +kernel
  have quad := hexQuad?_append rest (digits c.toNat control)
  have low : ¬ 0xD800 ≤ c.toNat := by omega
  have high : ¬ 0xDC00 ≤ c.toNat := by omega
  simp [escapeChar?, unitChar?, quad, low, high]

/-- A written character is read in one step. -/
theorem readChars_writeChar (c : Char) (fuel : Nat) (done rest : List Char) :
    readChars (fuel + 1) done (writeChar c ++ rest) = readChars fuel (c :: done) rest := by
  unfold writeChar
  iterate 7
    split
    · rename_i same
      rw [same]
      rfl
  split
  · rename_i control
    simp only [List.cons_append, readChars, escapeChar?_control control]
  · rename_i printed
    simp [readChars, printed]

theorem readChars_flatMap (chars done rest : List Char) {fuel : Nat}
    (enough : chars.length < fuel) :
    readChars fuel done (chars.flatMap writeChar ++ '"' :: rest) =
      .ok (String.ofList (done.reverse ++ chars), rest) := by
  induction chars generalizing done fuel with
  | nil =>
    obtain ⟨fuel, rfl⟩ : ∃ less, fuel = less + 1 := ⟨fuel - 1, by omega⟩
    simp [readChars]
  | cons c more ih =>
    obtain ⟨fuel, rfl⟩ : ∃ less, fuel = less + 1 := ⟨fuel - 1, by omega⟩
    have fewer : more.length < fuel := Nat.lt_of_succ_lt_succ enough
    rw [List.flatMap_cons, List.append_assoc, readChars_writeChar, ih (c :: done) fewer]
    simp

theorem length_le_flatMap (chars : List Char) :
    chars.length ≤ (chars.flatMap writeChar).length := by
  induction chars with
  | nil => exact Nat.le_refl _
  | cons c rest ih =>
    have some_ : 0 < (writeChar c).length := by
      unfold writeChar
      repeat' split
      all_goals simp
    simp only [List.flatMap_cons, List.length_append, List.length_cons]
    omega

theorem toList_writeString (text : String) :
    (writeString text).toList = '"' :: (text.toList.flatMap writeChar ++ ['"']) := by
  simp [writeString]

/-- The characters of a written string are read up to its closing quote. -/
theorem readChars_body (text : String) (rest : List Char) :
    readChars ((text.toList.flatMap writeChar ++ '"' :: rest).length + 1) []
      (text.toList.flatMap writeChar ++ '"' :: rest) = .ok (text, rest) := by
  have enough : text.toList.length <
      (text.toList.flatMap writeChar ++ '"' :: rest).length + 1 := by
    have := length_le_flatMap text.toList
    simp only [List.length_append]
    omega
  simpa using readChars_flatMap text.toList [] rest enough

/-! ## Legible documents -/

/-- What the reader has to know of a written document: it opens with a character by which it is told
from a gap and from the end of an array, it is read whatever follows, and its lines break in one way
only. -/
structure Legible (level : Nat) (document : Json) : Prop where
  opens : ∃ c more, (document.writeIndented level).toList = c :: more ∧
    isGap c = false ∧ c ≠ ']'
  unbroken : '\r' ∉ (document.writeIndented level).toList
  reads : ∀ fuel rest, (document.writeIndented level).toList.length ≤ fuel →
    readValue fuel ((document.writeIndented level).toList ++ rest) = .ok (document, rest)

/-! ### Arrays -/

/-- What is read behind an item. -/
def readBehindItem (fuel : Nat) (done : List Json) : Step Json := fun text =>
  match skipGap text with
  | ',' :: rest => readItems fuel done (skipGap rest)
  | ']' :: rest => .ok (.array done.reverse, rest)
  | _ => .error .malformed

/-- An item is read, and what follows it decides how to go on. -/
theorem readItems_step {level fuel : Nat} {item : Json} (legible : Legible level item)
    (fits : (item.writeIndented level).toList.length ≤ fuel) (done : List Json)
    (rest : List Char) :
    readItems (fuel + 1) done ((item.writeIndented level).toList ++ rest) =
      readBehindItem fuel (item :: done) rest := by
  rw [readItems, legible.reads fuel rest fits]
  rfl

/-- The items of an array are read up to its end. -/
theorem readItems_written {level : Nat} {item : Json} {rest : List Json}
    (legible : ∀ document ∈ item :: rest, Legible level document) (done : List Json)
    {close tail : List Char} (closed : skipGap close = ']' :: tail) {fuel : Nat}
    (enough : (item.writeIndented level).toList.length +
      (writeIndentedItems level rest).toList.length < fuel) :
    readItems fuel done ((item.writeIndented level).toList ++
        ((writeIndentedItems level rest).toList ++ close)) =
      .ok (.array (done.reverse ++ item :: rest), tail) := by
  induction rest generalizing item done fuel with
  | nil =>
    obtain ⟨fuel, rfl⟩ : ∃ less, fuel = less + 1 := ⟨fuel - 1, by omega⟩
    have fits : (item.writeIndented level).toList.length ≤ fuel := by omega
    rw [readItems_step (legible item (by simp)) fits, writeIndentedItems, String.toList_empty,
      List.nil_append]
    simp [readBehindItem, closed]
  | cons next more ih =>
    obtain ⟨fuel, rfl⟩ : ∃ less, fuel = less + 1 := ⟨fuel - 1, by omega⟩
    have fits : (item.writeIndented level).toList.length ≤ fuel := by omega
    let others := (next.writeIndented level).toList ++
      ((writeIndentedItems level more).toList ++ close)
    have written : (writeIndentedItems level (next :: more)).toList ++ close =
        ',' :: '\n' :: ((Text.margin level).toList ++ others) := by
      simp [writeIndentedItems, others]
    -- one step of fuel goes to the item; the comma and the line break behind it make up for that
    have fewer : (next.writeIndented level).toList.length +
        (writeIndentedItems level more).toList.length < fuel := by
      have length := congrArg List.length written
      simp only [others, List.length_append, List.length_cons] at length
      omega
    have start : skipGap ('\n' :: ((Text.margin level).toList ++ others)) = others := by
      obtain ⟨c, text, opens, notGap, -⟩ := (legible next (by simp)).opens
      simp only [others, opens, List.cons_append, skipGap_line level _ notGap]
    have comma := @skipGap_cons ',' ('\n' :: ((Text.margin level).toList ++ others)) (by decide)
    rw [readItems_step (legible item (by simp)) fits, written]
    simp only [readBehindItem, comma, start]
    rw [ih (fun document h => legible document (List.mem_cons_of_mem _ h)) (item :: done) fewer]
    simp

/-! ### Objects -/

theorem new_of_nodup {done rest : List (String × Json)} {name : String} {value : Json}
    (distinct : (Entries.keys (done ++ (name, value) :: rest)).Nodup) :
    name ∉ Entries.keys done := by
  intro old
  simp only [Entries.keys, List.map_append, List.map_cons] at distinct
  exact (List.nodup_append.mp distinct).2.2 name old name (by simp) rfl

/-- A member as it is written. -/
def memberText (level : Nat) (name : String) (value : Json) : List Char :=
  (writeString name).toList ++ ':' :: ' ' :: (value.writeIndented level).toList

/-- What is read behind a member. -/
def readBehindMember (fuel : Nat) (done : List (String × Json)) : Step Json := fun text =>
  match skipGap text with
  | ',' :: rest => readMembers fuel done (skipGap rest)
  | '\x7d' :: rest => .ok (.object done, rest)
  | _ => .error .malformed

/-- A member of a new name is read, and what follows it decides how to go on. -/
theorem readMembers_step {level fuel : Nat} {value : Json} (legible : Legible level value)
    {name : String} (fits : (memberText level name value).length ≤ fuel)
    {done : List (String × Json)} (new : name ∉ Entries.keys done) (rest : List Char) :
    readMembers (fuel + 1) done (memberText level name value ++ rest) =
      readBehindMember fuel (done ++ [(name, value)]) rest := by
  obtain ⟨c, text, opens, notGap, -⟩ := legible.opens
  have start : skipGap (' ' :: ((value.writeIndented level).toList ++ rest)) =
      (value.writeIndented level).toList ++ rest := by
    rw [skipGap_blank, opens, List.cons_append, skipGap_cons notGap]
  have member : memberText level name value ++ rest = '"' :: (name.toList.flatMap writeChar ++
      '"' :: ':' :: ' ' :: ((value.writeIndented level).toList ++ rest)) := by
    simp [memberText, toList_writeString]
  have colon (text : List Char) : skipGap (':' :: text) = ':' :: text := rfl
  have read := legible.reads fuel rest (by
    simp only [memberText, List.length_append, List.length_cons] at fits
    omega)
  rw [member, readMembers, readChars_body]
  simp only [bind, Except.bind, colon, start, read, Entries.put_new new value]
  rfl

/-- The members of an object are read up to its end. -/
theorem readMembers_written {level : Nat} {name : String} {value : Json}
    {rest done : List (String × Json)}
    (legible : ∀ member ∈ (name, value) :: rest, Legible level member.2)
    (distinct : (Entries.keys (done ++ (name, value) :: rest)).Nodup)
    {close tail : List Char} (closed : skipGap close = '\x7d' :: tail) {fuel : Nat}
    (enough : (memberText level name value).length +
      (writeIndentedMembers level rest).toList.length < fuel) :
    readMembers fuel done (memberText level name value ++
        ((writeIndentedMembers level rest).toList ++ close)) =
      .ok (.object (done ++ (name, value) :: rest), tail) := by
  induction rest generalizing name value done fuel with
  | nil =>
    obtain ⟨fuel, rfl⟩ : ∃ less, fuel = less + 1 := ⟨fuel - 1, by omega⟩
    have first : Legible level value := legible (name, value) (by simp)
    have fits : (memberText level name value).length ≤ fuel := by omega
    rw [readMembers_step first fits (new_of_nodup distinct), writeIndentedMembers,
      String.toList_empty, List.nil_append]
    simp only [readBehindMember, closed]
  | cons next more ih =>
    obtain ⟨name', value'⟩ := next
    obtain ⟨fuel, rfl⟩ : ∃ less, fuel = less + 1 := ⟨fuel - 1, by omega⟩
    have first : Legible level value := legible (name, value) (by simp)
    have fits : (memberText level name value).length ≤ fuel := by omega
    let others := memberText level name' value' ++
      ((writeIndentedMembers level more).toList ++ close)
    have written : (writeIndentedMembers level ((name', value') :: more)).toList ++ close =
        ',' :: '\n' :: ((Text.margin level).toList ++ others) := by
      simp [writeIndentedMembers, memberText, others]
    have fewer : (memberText level name' value').length +
        (writeIndentedMembers level more).toList.length < fuel := by
      have length := congrArg List.length written
      simp only [others, List.length_append, List.length_cons] at length
      omega
    have start : skipGap ('\n' :: ((Text.margin level).toList ++ others)) = others := by
      simp only [others, memberText, toList_writeString, List.cons_append]
      exact skipGap_line level _ (by decide)
    have comma := @skipGap_cons ',' ('\n' :: ((Text.margin level).toList ++ others)) (by decide)
    rw [readMembers_step first fits (new_of_nodup distinct), written]
    simp only [readBehindMember, comma, start]
    rw [ih (fun member h => legible member (List.mem_cons_of_mem _ h)) (by simpa using distinct)
      fewer]
    simp

/-! ### All documents -/

/-- A document is legible when one step of the reader is enough to see it. -/
theorem Legible.of_text {level : Nat} {document : Json} (c : Char) (more : List Char)
    (written : (document.writeIndented level).toList = c :: more) (notGap : isGap c = false)
    (notEnd : c ≠ ']') (unbroken : '\r' ∉ more)
    (reads : ∀ fuel rest, more.length ≤ fuel →
      readValue (fuel + 1) (c :: (more ++ rest)) = .ok (document, rest)) :
    Legible level document where
  opens := ⟨c, more, written, notGap, notEnd⟩
  unbroken := by
    have notReturn : '\r' ≠ c := by
      rintro rfl
      cases notGap
    rw [written]
    exact List.not_mem_cons_of_ne_of_not_mem notReturn unbroken
  reads := by
    intro fuel rest enough
    rw [written] at enough ⊢
    obtain ⟨fuel, rfl⟩ : ∃ less, fuel = less + 1 := ⟨fuel - 1, by
      rw [List.length_cons] at enough
      omega⟩
    exact reads fuel rest (Nat.le_of_succ_le_succ enough)

theorem unbroken_writeChar (c : Char) : '\r' ∉ writeChar c := by
  have digits : ∀ n < 32, '\r' ∉ Text.hexDigits 4 n := by decide +kernel
  unfold writeChar
  iterate 7
    split
    · decide
  split
  · rename_i control
    simpa using digits c.toNat control
  · rename_i other _ _ _ _
    simpa using Ne.symm other

theorem unbroken_body (text : String) : '\r' ∉ text.toList.flatMap writeChar ++ ['"'] := by
  simp [unbroken_writeChar]

theorem unbroken_margin (level : Int) : '\r' ∉ (Text.margin level).toList := by
  intro h
  exact absurd (mem_margin h) (by decide)

theorem legible_string (level : Nat) (text : String) : Legible level (.string text) := by
  refine .of_text '"' _ (toList_writeString text) (by decide) (by decide) (unbroken_body text) ?_
  intro fuel rest _
  rw [List.append_assoc, List.singleton_append, readValue, readChars_body]
  rfl

theorem unbroken_items {level : Nat} {items : List Json}
    (legible : ∀ item ∈ items, Legible level item) :
    '\r' ∉ (writeIndentedItems level items).toList := by
  induction items with
  | nil => simp [writeIndentedItems]
  | cons item rest ih =>
    obtain ⟨first, others⟩ := List.forall_mem_cons.mp legible
    simp [-Text.toList_margin, writeIndentedItems, unbroken_margin, first.unbroken, ih others]

theorem unbroken_members {level : Nat} {members : List (String × Json)}
    (legible : ∀ member ∈ members, Legible level member.2) :
    '\r' ∉ (writeIndentedMembers level members).toList := by
  induction members with
  | nil => simp [writeIndentedMembers]
  | cons member rest ih =>
    obtain ⟨name, value⟩ := member
    obtain ⟨first, others⟩ := List.forall_mem_cons.mp legible
    simp [-Text.toList_margin, writeIndentedMembers, toList_writeString, unbroken_writeChar,
      unbroken_margin, first.unbroken, ih others]

theorem legible_array {level : Nat} {items : List Json}
    (legible : ∀ item ∈ items, Legible (level + 1) item) : Legible level (.array items) := by
  cases items with
  | nil =>
    exact .of_text '[' [']'] (by simp [writeIndented]) (by decide) (by decide) (by decide)
      fun _ _ _ => rfl
  | cons item rest =>
    obtain ⟨first, others⟩ := List.forall_mem_cons.mp legible
    have written : ((Json.array (item :: rest)).writeIndented level).toList =
        '[' :: '\n' :: ((Text.margin (level + 1)).toList ++
          ((item.writeIndented (level + 1)).toList ++
            ((writeIndentedItems (level + 1) rest).toList ++
              '\n' :: ((Text.margin level).toList ++ [']'])))) := by
      simp [-Text.toList_margin, writeIndented]
    refine .of_text '[' _ written (by decide) (by decide) ?_ ?_
    · simp [-Text.toList_margin, unbroken_margin, first.unbroken, unbroken_items others]
    · intro fuel tail enough
      have closed := @skipGap_line level ']' tail (by decide)
      have fits : (item.writeIndented (level + 1)).toList.length +
          (writeIndentedItems (level + 1) rest).toList.length < fuel := by
        simp only [List.length_cons, List.length_append] at enough
        omega
      have items := readItems_written legible [] closed fits
      obtain ⟨c, text, opens, notGap, notEnd⟩ := first.opens
      rw [opens] at items ⊢
      simp only [List.cons_append, List.append_assoc, List.nil_append] at items ⊢
      rw [readValue, skipGap_line _ _ notGap]
      simpa [notEnd] using items

theorem legible_object {level : Nat} {members : List (String × Json)}
    (distinct : (Entries.keys members).Nodup)
    (legible : ∀ member ∈ members, Legible (level + 1) member.2) :
    Legible level (.object members) := by
  cases members with
  | nil =>
    exact .of_text '\x7b' ['\x7d'] (by simp [writeIndented]) (by decide) (by decide) (by decide)
      fun _ _ _ => rfl
  | cons member rest =>
    obtain ⟨name, value⟩ := member
    obtain ⟨first, others⟩ := List.forall_mem_cons.mp legible
    have written : ((Json.object ((name, value) :: rest)).writeIndented level).toList =
        '\x7b' :: '\n' :: ((Text.margin (level + 1)).toList ++
          (memberText (level + 1) name value ++
            ((writeIndentedMembers (level + 1) rest).toList ++
              '\n' :: ((Text.margin level).toList ++ ['\x7d'])))) := by
      simp [-Text.toList_margin, writeIndented, memberText]
    refine .of_text '\x7b' _ written (by decide) (by decide) ?_ ?_
    · simp [-Text.toList_margin, memberText, toList_writeString, unbroken_writeChar,
        unbroken_margin, first.unbroken, unbroken_members others]
    · intro fuel tail enough
      have closed := @skipGap_line level '\x7d' tail (by decide)
      have fits : (memberText (level + 1) name value).length +
          (writeIndentedMembers (level + 1) rest).toList.length < fuel := by
        simp only [List.length_cons, List.length_append] at enough
        omega
      have members := @readMembers_written _ _ _ _ [] legible distinct _ _ closed _ fits
      simp only [memberText, toList_writeString, List.cons_append, List.append_assoc,
        List.nil_append] at members ⊢
      rw [readValue, skipGap_line _ _ (by decide)]
      simpa using members

mutual

/-- Every document without numbers is legible. -/
theorem Numberless.legible (document : Json) (level : Nat) (h : document.Numberless) :
    Legible level document := by
  match document, h with
  | .null, _ =>
    exact .of_text 'n' ['u', 'l', 'l'] (by simp [writeIndented]) (by decide) (by decide) (by decide)
      fun _ _ _ => rfl
  | .bool true, _ =>
    exact .of_text 't' ['r', 'u', 'e'] (by simp [writeIndented]) (by decide) (by decide) (by decide)
      fun _ _ _ => rfl
  | .bool false, _ =>
    exact .of_text 'f' ['a', 'l', 's', 'e'] (by simp [writeIndented]) (by decide) (by decide)
      (by decide) fun _ _ _ => rfl
  | .string text, _ => exact legible_string level text
  | .array items, h => exact legible_array (NumberlessItems.legible items (level + 1) h)
  | .object members, h =>
    exact legible_object h.1 (NumberlessMembers.legible members (level + 1) h.2)
termination_by structural document

theorem NumberlessItems.legible (items : List Json) (level : Nat) (h : NumberlessItems items) :
    ∀ item ∈ items, Legible level item := by
  cases items with
  | nil => simp
  | cons first rest =>
    have head := Numberless.legible first level h.1
    have others := NumberlessItems.legible rest level h.2
    exact List.forall_mem_cons.mpr ⟨head, others⟩
termination_by structural items

theorem NumberlessMembers.legible (members : List (String × Json)) (level : Nat)
    (h : NumberlessMembers members) : ∀ member ∈ members, Legible level member.2 := by
  cases members with
  | nil => simp
  | cons first rest =>
    obtain ⟨name, value⟩ := first
    have head := Numberless.legible value level h.1
    have others := NumberlessMembers.legible rest level h.2
    exact List.forall_mem_cons.mpr ⟨head, others⟩
termination_by structural members

end

/-! ## Reading -/

/-- What is written is read back. -/
theorem read_writeIndented {document : Json} (h : document.Numberless) (level : Nat) :
    read (document.writeIndented level) = .ok document := by
  have legible := h.legible document level
  obtain ⟨c, more, opens, notGap, -⟩ := legible.opens
  have start : skipGap (document.writeIndented level).toList =
      (document.writeIndented level).toList := by
    rw [opens, skipGap_cons notGap]
  have reads := legible.reads ((document.writeIndented level).toList.length + 1) []
    (Nat.le_succ _)
  rw [List.append_nil] at reads
  simp only [read, start, reads]
  rfl

end ScopeScript.Json
