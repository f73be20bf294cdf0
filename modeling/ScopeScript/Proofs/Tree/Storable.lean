import ScopeScript.Proofs.Grammar.Exact
import ScopeScript.Tree.Stored
set_option autoImplicit false

/-!
# Tree: which trees stored documents have

Every datum that is loaded has literals of three kinds and nodes with all of their fields, and its
number literals are finite.  The other way round, such a datum is loaded from some document if each
of its number literals is read from some text.

A tree is storable when it is the tree of such a datum.  Those of documents are, and so are those of
sources: a numeral is the very text that its number is read from.  The data of sources hold less:
their literals are texts and numbers only, and in their fields there are nodes and words.
-/

namespace ScopeScript

/-! ## Data that can be loaded -/

namespace Datum

section

variable (P : Number → Prop)

mutual

/-- Nodes have all of their fields, and literals are booleans, texts or numbers with a property. -/
def Stored : Datum → Prop
  | .literal (.number n) => P n
  | .literal (.boolean _) | .literal (.text _) => True
  | .literal _ | .number _ => False
  | .tuple items => StoredAll items
  | .record kind fields => fields.length = kind.fieldNames.length ∧ StoredAll fields
  | _ => True

/-- Several data of which all are stored. -/
def StoredAll : List Datum → Prop
  | [] => True
  | item :: rest => Stored item ∧ StoredAll rest

end

mutual

/-- A datum as the trees of scripts have it: nodes with all of their fields, words, and literals
that are texts or numbers with a property. -/
def Scripted : Datum → Prop
  | .nothing | .text _ | .literal (.text _) => True
  | .literal (.number n) => P n
  | .tuple items => ScriptedAll items
  | .record kind fields => fields.length = kind.fieldNames.length ∧ ScriptedAll fields
  | _ => False

/-- Several data as the trees of scripts have them. -/
def ScriptedAll : List Datum → Prop
  | [] => True
  | item :: rest => Scripted item ∧ ScriptedAll rest

end

end

variable {P : Number → Prop}

mutual

/-- What scripts have can be stored. -/
theorem Scripted.stored {Q : Number → Prop} (weaker : ∀ n, P n → Q n) (datum : Datum)
    (h : datum.Scripted P) : datum.Stored Q := by
  match datum, h with
  | .nothing, _ | .text _, _ | .literal (.text _), _ => trivial
  | .literal (.number n), h => exact weaker n h
  | .tuple items, h => exact ScriptedAll.stored weaker items h
  | .record kind fields, h => exact ⟨h.1, ScriptedAll.stored weaker fields h.2⟩
termination_by structural datum

theorem ScriptedAll.stored {Q : Number → Prop} (weaker : ∀ n, P n → Q n) (data : List Datum)
    (h : ScriptedAll P data) : StoredAll Q data := by
  cases data with
  | nil => trivial
  | cons datum rest =>
    exact ⟨Scripted.stored weaker datum h.1, ScriptedAll.stored weaker rest h.2⟩
termination_by structural data

end

theorem storedAll_iff {data : List Datum} :
    StoredAll P data ↔ ∀ datum ∈ data, datum.Stored P := by
  induction data with
  | nil => simp [StoredAll]
  | cons datum rest ih => simp [StoredAll, ih]

/-- Scripts have tuples of words. -/
theorem scripted_ofWords (words : List String) : (ofWords words).Scripted P := by
  simp only [ofWords, Scripted]
  induction words with
  | nil => trivial
  | cons word rest ih => exact ⟨trivial, ih⟩

/-- Whether a datum is a node or says that there is none: a document by itself is not asked for
anything else. -/
def isNode : Datum → Bool
  | .nothing | .literal _ | .record _ _ => true
  | _ => false

/-! ### Loading -/

/-- A number that is no special value. -/
def Finite (n : Number) : Prop := n.isFinite = true

theorem stored_loadLiteral {members : List (String × Json)} {datum : Datum}
    (h : loadLiteral members = .ok datum) : datum.isNode = true ∧ datum.Stored Finite := by
  unfold loadLiteral at h
  split at h
  · rename_i literalType _
    extract_lets name at h
    clear_value name
    split at h
    · split at h
      · obtain ⟨number, -, h⟩ := bind_eq_ok.mp h
        split at h
        · rename_i finite
          cases h
          exact ⟨rfl, finite⟩
        · cases h
      · cases h
    · split at h
      · split at h
        · cases h
          exact ⟨rfl, trivial⟩
        · cases h
      · split at h
        · split at h
          · cases h
            exact ⟨rfl, trivial⟩
          · cases h
        · cases h
  · cases h

theorem stored_default {kind : NodeKind} {name : String} {datum : Datum}
    (h : kind.default? name = some datum) : datum.Stored P := by
  unfold NodeKind.default? at h
  split at h <;> cases h <;> trivial

/-- Members that load as data that can be stored. -/
def LoadStored (loaded : List (String × Except Error Datum)) : Prop :=
  ∀ name datum, (name, Except.ok datum) ∈ loaded → datum.Stored Finite

/-- The fields that are picked can be stored, and there are as many as names. -/
theorem stored_pickFields {kind : NodeKind} {loaded : List (String × Except Error Datum)}
    (stored : LoadStored loaded) {names : List String} {fields : List (Option Datum)}
    (h : pickFields kind loaded names = .ok fields) :
    fields.length = names.length ∧ ∀ datum, some datum ∈ fields → datum.Stored Finite := by
  induction names generalizing fields with
  | nil =>
    cases h
    simp
  | cons name rest ih =>
    have added : ∀ {field : Option Datum}, (∀ datum, field = some datum → datum.Stored Finite) →
        (do let fields ← pickFields kind loaded rest; Except.ok (field :: fields)) = .ok fields →
        fields.length = (name :: rest).length ∧
          ∀ datum, some datum ∈ fields → datum.Stored Finite := by
      intro field hfield h
      obtain ⟨others, hothers, h⟩ := bind_eq_ok.mp h
      cases h
      obtain ⟨count, storedOthers⟩ := ih hothers
      refine ⟨congrArg Nat.succ count, ?_⟩
      intro datum hdatum
      rcases List.mem_cons.mp hdatum with same | hdatum
      · exact hfield datum same.symm
      · exact storedOthers datum hdatum
    rw [pickFields] at h
    split at h
    · rename_i result hlookup
      obtain ⟨field, hfield, h⟩ := bind_eq_ok.mp h
      refine added ?_ h
      intro datum same
      cases result with
      | error error => cases hfield
      | ok found =>
        cases hfield
        cases same
        obtain ⟨before, behind, hsplit, -⟩ := List.lookup_eq_some_iff.mp hlookup
        exact stored name datum (by rw [hsplit]; simp)
    · exact added (fun _ => stored_default) h

theorem complete?_eq_some {α : Type} {parts : List (Option α)} {whole : List α} :
    complete? parts = some whole ↔ parts = whole.map some := by
  induction parts generalizing whole with
  | nil => cases whole <;> simp [complete?]
  | cons part rest ih =>
    cases part with
    | none => cases whole <;> simp [complete?]
    | some a =>
      cases whole with
      | nil => simp [complete?]
      | cons b others => simpa [complete?, ih] using and_comm

theorem stored_loadObject {members : List (String × Json)}
    {loaded : List (String × Except Error Datum)} (stored : LoadStored loaded) {datum : Datum}
    (h : loadObject members loaded = .ok datum) : datum.isNode = true ∧ datum.Stored Finite := by
  unfold loadObject at h
  split at h
  · split at h
    · exact stored_loadLiteral h
    · split at h
      · obtain ⟨fields, hfields, h⟩ := bind_eq_ok.mp h
        split at h
        · rename_i data hdata
          cases h
          obtain ⟨count, parts⟩ := stored_pickFields stored hfields
          rw [complete?_eq_some.mp hdata] at count parts
          refine ⟨rfl, by simpa using count, storedAll_iff.mpr fun datum hdatum => ?_⟩
          exact parts datum (List.mem_map_of_mem hdatum)
        · cases h
      · cases h
  all_goals cases h

mutual

/-- What is loaded can be stored. -/
theorem stored_load (document : Json) {datum : Datum} (h : load document = .ok datum) :
    datum.Stored Finite := by
  cases document with
  | array items =>
    obtain ⟨data, hdata, h⟩ := bind_eq_ok.mp h
    cases h
    exact stored_loadItems items hdata
  | object members => exact (stored_loadObject (stored_loadMembers members) h).2
  | _ =>
    cases h
    trivial
termination_by structural document

theorem stored_loadItems (items : List Json) {data : List Datum}
    (h : loadItems items = .ok data) : StoredAll Finite data := by
  cases items with
  | nil =>
    cases h
    trivial
  | cons item rest =>
    obtain ⟨datum, hdatum, h⟩ := bind_eq_ok.mp h
    obtain ⟨others, hothers, h⟩ := bind_eq_ok.mp h
    cases h
    exact ⟨stored_load item hdatum, stored_loadItems rest hothers⟩
termination_by structural items

theorem stored_loadMembers (members : List (String × Json)) : LoadStored (loadMembers members) := by
  cases members with
  | nil => simp [LoadStored, loadMembers]
  | cons member rest =>
    obtain ⟨first, document⟩ := member
    intro name datum hmember
    rcases List.mem_cons.mp hmember with same | hmember
    · exact stored_load document (Prod.mk.inj same).2.symm
    · exact stored_loadMembers rest name datum hmember
termination_by structural members

end

/-! ### Documents -/

/-- A number that some text stands for. -/
def Readable (n : Number) : Prop := n.isFinite = true ∧ ∃ text, Number.read? text = some n

theorem load_boolean (value : Bool) :
    load (literalObject "Boolean" (.bool value)) = .ok (.literal (.boolean value)) := rfl

theorem load_text (value : String) :
    load (literalObject "String" (.string value)) = .ok (.literal (.text value)) := rfl

theorem load_number {text : String} {n : Number} (read : Number.read? text = some n)
    (finite : n.isFinite = true) :
    load (literalObject "Number" (.string text)) = .ok (.literal (.number n)) := by
  have number : numberOf (.string text) = .ok n := by
    rw [numberOf, numberOfText, read]
  change (numberOf (.string text) >>= fun n =>
    if n.isFinite then Except.ok (Datum.literal (.number n)) else _) = _
  rw [number]
  exact if_pos finite

theorem loadItems_eq_ok {items : List Json} {data : List Datum} :
    loadItems items = .ok data ↔ items.map load = data.map .ok := by
  induction items generalizing data with
  | nil => cases data <;> simp [loadItems]
  | cons item rest ih =>
    rw [loadItems, bind_eq_ok]
    constructor
    · rintro ⟨datum, hdatum, h⟩
      obtain ⟨others, hothers, h⟩ := bind_eq_ok.mp h
      cases h
      simp [hdatum, ih.mp hothers]
    · intro h
      cases data with
      | nil => simp at h
      | cons datum others =>
        simp only [List.map_cons, List.cons.injEq] at h
        refine ⟨datum, h.1, bind_eq_ok.mpr ⟨others, ih.mpr h.2, rfl⟩⟩

theorem loadMembers_zip (names : List String) (documents : List Json) :
    loadMembers (names.zip documents) = names.zip (documents.map load) := by
  induction names generalizing documents with
  | nil => rfl
  | cons name rest ih =>
    cases documents with
    | nil => rfl
    | cons document others => simp [loadMembers, ih]

/-- Every name is found among distinct names. -/
theorem lookup_zip {α : Type} {names : List String} (distinct : names.Nodup) {values : List α}
    {name : String} {value : α} (h : (name, value) ∈ names.zip values) :
    (names.zip values).lookup name = some value := by
  induction names generalizing values with
  | nil => simp at h
  | cons first rest ih =>
    cases values with
    | nil => simp at h
    | cons other values =>
      simp only [List.zip_cons_cons, List.mem_cons, Prod.mk.injEq] at h
      rcases h with ⟨rfl, rfl⟩ | h
      · simp
      · have apart : name ≠ first := by
          rintro rfl
          exact (List.nodup_cons.mp distinct).1 (List.of_mem_zip h).1
        rw [List.zip_cons_cons, List.lookup_cons, beq_false_of_ne apart]
        exact ih (List.nodup_cons.mp distinct).2 h

/-- Fields that stand under their names are picked. -/
theorem pickFields_of_lookup {kind : NodeKind} {loaded : List (String × Except Error Datum)}
    {names : List String} {fields : List Datum} (count : fields.length = names.length)
    (h : ∀ name field, (name, field) ∈ names.zip fields → loaded.lookup name = some (.ok field)) :
    pickFields kind loaded names = .ok (fields.map some) := by
  induction names generalizing fields with
  | nil =>
    rw [List.eq_nil_of_length_eq_zero count]
    rfl
  | cons name rest ih =>
    cases fields with
    | nil => simp at count
    | cons field others =>
      have first : loaded.lookup name = some (.ok field) := h name field (by simp)
      have more := ih (Nat.succ.inj count) fun name field hfield => h name field (by simp [hfield])
      rw [pickFields, first, more]
      rfl

theorem nodup_fieldNames (kind : NodeKind) : ("type" :: kind.fieldNames).Nodup := by
  cases kind <;> decide

/-- A node is loaded from its kind and the documents of its fields. -/
theorem load_record {kind : NodeKind} {documents : List Json} {fields : List Datum}
    (count : fields.length = kind.fieldNames.length) (h : loadItems documents = .ok fields) :
    load (.object (("type", .string kind.label) :: kind.fieldNames.zip documents)) =
      .ok (.record kind fields) := by
  have loaded : loadMembers (("type", .string kind.label) :: kind.fieldNames.zip documents) =
      ("type" :: kind.fieldNames).zip ((Datum.text kind.label :: fields).map Except.ok) := by
    simp [loadMembers, loadMembers_zip, loadItems_eq_ok.mp h, load]
  have picked : pickFields kind
      (loadMembers (("type", .string kind.label) :: kind.fieldNames.zip documents))
      kind.fieldNames = .ok (fields.map some) := by
    refine pickFields_of_lookup count fun name field hfield => ?_
    rw [loaded]
    apply lookup_zip (nodup_fieldNames kind)
    simp only [List.map_cons, List.zip_cons_cons, List.mem_cons, List.zip_map_right, List.mem_map]
    exact .inr ⟨(name, field), hfield, rfl⟩
  have node : kind.label ≠ "Literal" := by cases kind <;> decide
  have whole : complete? (fields.map some) = some fields := complete?_eq_some.mpr rfl
  rw [load, loadObject, List.lookup_cons_self]
  simp only [if_neg node, NodeKind.ofLabel?_label, loadFields, picked, ok_bind, whole]

mutual

/-- A datum whose numbers some texts stand for is that of some document. -/
theorem exists_load (datum : Datum) (h : datum.Stored Readable) :
    ∃ document, load document = .ok datum := by
  match datum, h with
  | .nothing, _ => exact ⟨.null, rfl⟩
  | .boolean value, _ => exact ⟨.bool value, rfl⟩
  | .integer value, _ => exact ⟨.integer value, rfl⟩
  | .float value, _ => exact ⟨.float value, rfl⟩
  | .text value, _ => exact ⟨.string value, rfl⟩
  | .literal (.boolean value), _ => exact ⟨_, load_boolean value⟩
  | .literal (.text value), _ => exact ⟨_, load_text value⟩
  | .literal (.number value), h =>
    obtain ⟨finite, text, read⟩ := h
    exact ⟨_, load_number read finite⟩
  | .tuple items, h =>
    obtain ⟨documents, hdocuments⟩ := exists_loadItems items h
    exact ⟨.array documents, by rw [load, hdocuments]; rfl⟩
  | .record kind fields, h =>
    obtain ⟨documents, hdocuments⟩ := exists_loadItems fields h.2
    exact ⟨_, load_record h.1 hdocuments⟩
termination_by structural datum

theorem exists_loadItems (data : List Datum) (h : StoredAll Readable data) :
    ∃ documents, loadItems documents = .ok data := by
  cases data with
  | nil => exact ⟨[], rfl⟩
  | cons datum rest =>
    obtain ⟨document, hdocument⟩ := exists_load datum h.1
    obtain ⟨documents, hdocuments⟩ := exists_loadItems rest h.2
    exact ⟨document :: documents, by rw [loadItems, hdocument, hdocuments]; rfl⟩
termination_by structural data

end

end Datum

/-! ## Operators -/

theorem UnaryOp.ofSymbol_symbol {op : UnaryOp} (own : op ∈ all) : ofSymbol op.symbol = op := by
  revert op
  decide

theorem BinaryOp.ofSymbol_symbol {op : BinaryOp} (own : op ∈ all) : ofSymbol op.symbol = op := by
  revert op
  decide

/-! ## Trees of data that can be loaded -/

namespace Node

variable {P : Number → Prop}

/-- The tree of a node that can be stored, or of none. -/
def Storable (P : Number → Prop) (node : Node) : Prop :=
  ∃ datum, ofDatum datum = node ∧ datum.isNode = true ∧ datum.Stored P

/-- The tree of a node as scripts have it, or of none. -/
def Scripted (P : Number → Prop) (node : Node) : Prop :=
  ∃ datum, ofDatum datum = node ∧ datum.isNode = true ∧ datum.Scripted P

/-- The trees of data as scripts have them. -/
def AllScripted (P : Number → Prop) (nodes : List Node) : Prop :=
  ∃ data, ofData data = nodes ∧ Datum.ScriptedAll P data

theorem Scripted.storable {node : Node} (h : node.Scripted P) : node.Storable P := by
  obtain ⟨datum, htree, isNode, scripted⟩ := h
  exact ⟨datum, htree, isNode, scripted.stored (fun _ => id) datum⟩

/-- A tree is loaded from a document as a node or as none. -/
theorem load_eq_ok {document : Json} {node : Node} :
    load document = .ok node ↔
      ∃ datum, Datum.load document = .ok datum ∧ datum.isNode = true ∧ ofDatum datum = node := by
  constructor
  · intro h
    cases document with
    | null =>
      cases h
      exact ⟨.nothing, rfl, rfl, rfl⟩
    | object members =>
      rw [load] at h
      cases hload : Datum.load (.object members) with
      | error error =>
        rw [hload] at h
        cases h
      | ok datum =>
        rw [hload] at h
        cases h
        have isNode := (Datum.stored_loadObject (Datum.stored_loadMembers members) hload).1
        exact ⟨datum, rfl, isNode, rfl⟩
    | _ => cases h
  · rintro ⟨datum, hload, isNode, rfl⟩
    cases document with
    | null =>
      cases hload
      rfl
    | object members =>
      rw [load, hload]
      rfl
    | array items =>
      obtain ⟨data, -, h⟩ := bind_eq_ok.mp hload
      cases h
      cases isNode
    | _ =>
      cases hload
      cases isNode

theorem load_storable {document : Json} {node : Node} (h : load document = .ok node) :
    node.Storable Datum.Finite := by
  obtain ⟨datum, hload, isNode, htree⟩ := load_eq_ok.mp h
  exact ⟨datum, htree, isNode, Datum.stored_load document hload⟩

/-- A tree whose numbers some texts stand for is that of some document. -/
theorem Storable.exists_load {node : Node} (h : node.Storable Datum.Readable) :
    ∃ document, load document = .ok node := by
  obtain ⟨datum, htree, isNode, stored⟩ := h
  obtain ⟨document, hload⟩ := datum.exists_load stored
  exact ⟨document, load_eq_ok.mpr ⟨datum, hload, isNode, htree⟩⟩

theorem scripted_absent : absent.Scripted P := ⟨.nothing, rfl, rfl, trivial⟩

theorem scripted_text (content : String) : (literal (.text content)).Scripted P :=
  ⟨.literal (.text content), rfl, rfl, trivial⟩

theorem scripted_number {n : Number} (h : P n) : (literal (.number n)).Scripted P :=
  ⟨.literal (.number n), rfl, rfl, h⟩

theorem storable_text (content : String) : (literal (.text content)).Storable P :=
  (scripted_text content).storable

theorem storable_number {n : Number} (h : P n) : (literal (.number n)).Storable P :=
  (scripted_number h).storable

theorem scripted_identifier (name : String) (properties : List String) :
    (identifier (.text name) (.ofWords properties)).Scripted P :=
  ⟨.record .identifier [.text name, .ofWords properties], rfl, rfl, rfl, trivial,
    Datum.scripted_ofWords properties, trivial⟩

theorem allScripted_nil : AllScripted P [] := ⟨[], rfl, trivial⟩

theorem allScripted_cons {node : Node} {rest : List Node} (hnode : node.Scripted P)
    (hrest : AllScripted P rest) : AllScripted P (node :: rest) := by
  obtain ⟨datum, rfl, -, scripted⟩ := hnode
  obtain ⟨data, rfl, others⟩ := hrest
  exact ⟨datum :: data, rfl, scripted, others⟩

theorem scripted_call (name : String) {arguments : List Node} (h : AllScripted P arguments) :
    (call (.text name) arguments).Scripted P := by
  obtain ⟨data, rfl, scripted⟩ := h
  exact ⟨.record .call [.text name, .tuple data], rfl, rfl, rfl, trivial, scripted, trivial⟩

theorem scripted_unary {op : UnaryOp} (own : op ∈ UnaryOp.all) {operand : Node}
    (h : operand.Scripted P) : (unary op operand).Scripted P := by
  obtain ⟨datum, rfl, -, scripted⟩ := h
  have symbol : op.symbol.Scripted P := by
    cases op with
    | other symbol => simp [UnaryOp.all] at own
    | _ => trivial
  refine ⟨.record .unaryOp [op.symbol, datum], ?_, rfl, rfl, symbol, scripted, trivial⟩
  rw [ofDatum, UnaryOp.ofSymbol_symbol own]

theorem scripted_binary {op : BinaryOp} (own : op ∈ BinaryOp.all) {left right : Node}
    (hleft : left.Scripted P) (hright : right.Scripted P) :
    (binary op left right).Scripted P := by
  obtain ⟨first, rfl, -, scriptedFirst⟩ := hleft
  obtain ⟨second, rfl, -, scriptedSecond⟩ := hright
  have symbol : op.symbol.Scripted P := by
    cases op with
    | other symbol => simp [BinaryOp.all] at own
    | _ => trivial
  refine ⟨.record .binaryOp [op.symbol, first, second], ?_, rfl, rfl, symbol, scriptedFirst,
    scriptedSecond, trivial⟩
  rw [ofDatum, BinaryOp.ofSymbol_symbol own]

theorem scripted_block {statements : List Node} (h : AllScripted P statements) :
    (block statements).Scripted P := by
  obtain ⟨data, rfl, scripted⟩ := h
  exact ⟨.record .block [.tuple data], rfl, rfl, rfl, scripted, trivial⟩

theorem scripted_declaration (isConst : Bool) (name : String) {initial : Node}
    (h : initial.Scripted P) : (declaration isConst (.text name) initial).Scripted P := by
  obtain ⟨datum, rfl, -, scripted⟩ := h
  refine ⟨.record (declarationKind isConst) [.text name, datum], ?_, rfl, ?_, trivial, scripted,
    trivial⟩
  all_goals cases isConst <;> rfl

theorem scripted_assignment {target value : Node} (htarget : target.Scripted P)
    (hvalue : value.Scripted P) : (assignment target value).Scripted P := by
  obtain ⟨place, rfl, -, placed⟩ := htarget
  obtain ⟨datum, rfl, -, scripted⟩ := hvalue
  exact ⟨.record .assign [place, datum], rfl, rfl, rfl, placed, scripted, trivial⟩

theorem scripted_function (name : String) (params : List String) {body : Node}
    (h : body.Scripted P) : (function (.text name) (.ofWords params) body).Scripted P := by
  obtain ⟨datum, rfl, -, scripted⟩ := h
  exact ⟨.record .funcDecl [.text name, .ofWords params, datum], rfl, rfl, rfl, trivial,
    Datum.scripted_ofWords params, scripted, trivial⟩

theorem scripted_giveBack {value : Node} (h : value.Scripted P) : (giveBack value).Scripted P := by
  obtain ⟨datum, rfl, -, scripted⟩ := h
  exact ⟨.record .returnStmt [datum], rfl, rfl, rfl, scripted, trivial⟩

theorem scripted_callStatement {inner : Node} (h : inner.Scripted P) :
    (callStatement inner).Scripted P := by
  obtain ⟨datum, rfl, -, scripted⟩ := h
  exact ⟨.record .callStmt [datum], rfl, rfl, rfl, scripted, trivial⟩

theorem scripted_choice {condition thenBlock elseBlock : Node} (hcondition : condition.Scripted P)
    (hthen : thenBlock.Scripted P) (helse : elseBlock.Scripted P) :
    (choice condition thenBlock elseBlock).Scripted P := by
  obtain ⟨test, rfl, -, scriptedTest⟩ := hcondition
  obtain ⟨first, rfl, -, scriptedFirst⟩ := hthen
  obtain ⟨second, rfl, -, scriptedSecond⟩ := helse
  exact ⟨.record .ifStmt [test, first, second], rfl, rfl, rfl, scriptedTest, scriptedFirst,
    scriptedSecond, trivial⟩

end Node

/-! ## Trees of sources -/

namespace Grammar

open Node

variable {P : Number → Prop}

/-- If the lexeme is a number, what its numeral is read as has a property. -/
def Valued (P : Number → Prop) : Lexeme → Prop
  | .number numeral => P (numeralValue numeral)
  | _ => True

/-- All numerals among the lexemes are read as numbers with a property. -/
def AllValued (P : Number → Prop) (lexemes : List Lexeme) : Prop :=
  ∀ lexeme ∈ lexemes, Valued P lexeme

theorem allValued_append {a b : List Lexeme} :
    AllValued P (a ++ b) ↔ AllValued P a ∧ AllValued P b := by
  simp [AllValued, or_imp, forall_and]

theorem allValued_cons {lexeme : Lexeme} {rest : List Lexeme} :
    AllValued P (lexeme :: rest) ↔ Valued P lexeme ∧ AllValued P rest := by
  simp [AllValued]

theorem Sign.operator_mem {tier : Parser.Tier} (sign : Sign tier) :
    sign.operator ∈ BinaryOp.all := by
  cases sign <;> decide

theorem LogicalSign.operator_mem (sign : LogicalSign) : sign.operator ∈ BinaryOp.all := by
  cases sign <;> decide

theorem UnarySign.operator_mem (sign : UnarySign) : sign.operator ∈ UnaryOp.all := by
  cases sign <;> decide

mutual

theorem Expr.scripted_tree (d : Expr) (h : AllValued P d.yield) :
    d.tree.Scripted P := by
  cases d with
  | single operand => exact Operand.scripted_tree operand h
  | logical left sign right =>
    simp only [Expr.yield, allValued_append, allValued_cons] at h
    exact scripted_binary sign.operator_mem (Operand.scripted_tree left h.1)
      (Expr.scripted_tree right h.2.2)
termination_by structural d

theorem Operand.scripted_tree {tier : Parser.Tier} (d : Operand tier) (h : AllValued P d.yield) :
    d.tree.Scripted P := by
  match d, h with
  | .chain first more, h =>
    simp only [Operand.yield, allValued_append] at h
    exact MoreOperands.scripted_treeFrom more h.2 (Tighter.scripted_tree first h.1)
termination_by structural d

theorem Tighter.scripted_tree {tier : Parser.Tier} (d : Tighter tier) (h : AllValued P d.yield) :
    d.tree.Scripted P := by
  match tier, d, h with
  | _, .additive inner, h => exact Operand.scripted_tree inner h
  | _, .multiplicative inner, h => exact Operand.scripted_tree inner h
  | _, .signed inner, h => exact Signed.scripted_tree inner h
termination_by structural d

theorem MoreOperands.scripted_treeFrom {tier : Parser.Tier} (d : MoreOperands tier)
    (h : AllValued P d.yield) {left : Node} (scripted : left.Scripted P) :
    (d.treeFrom left).Scripted P := by
  match d, h with
  | .done, h => exact scripted
  | .more sign right rest, h =>
    simp only [MoreOperands.yield, allValued_cons, allValued_append] at h
    exact MoreOperands.scripted_treeFrom rest h.2.2
      (scripted_binary sign.operator_mem scripted (Tighter.scripted_tree right h.2.1))
termination_by structural d

theorem Signed.scripted_tree (d : Signed) (h : AllValued P d.yield) :
    d.tree.Scripted P := by
  cases d with
  | atom inner => exact Atom.scripted_tree inner h
  | sign sign operand =>
    simp only [Signed.yield, allValued_cons] at h
    exact scripted_unary sign.operator_mem (Signed.scripted_tree operand h.2)
termination_by structural d

theorem Atom.scripted_tree (d : Atom) (h : AllValued P d.yield) :
    d.tree.Scripted P := by
  cases d with
  | paren inner =>
    simp only [Atom.yield, allValued_cons, allValued_append] at h
    exact Expr.scripted_tree inner h.2.1
  | path name properties => exact scripted_identifier name properties
  | call inner => exact Call.scripted_tree inner h
  | number numeral =>
    simp only [Atom.yield, allValued_cons] at h
    exact scripted_number h.1
  | text content => exact scripted_text content
termination_by structural d

theorem Call.scripted_tree (d : Call) (h : AllValued P d.yield) :
    d.tree.Scripted P := by
  match d, h with
  | .mk name arguments, h =>
    simp only [Call.yield, allValued_cons, allValued_append] at h
    exact scripted_call name (Arguments.allScripted_trees arguments h.2.2.1)
termination_by structural d

theorem Arguments.allScripted_trees (d : Arguments) (h : AllValued P d.yield) :
    AllScripted P d.trees := by
  cases d with
  | none => exact allScripted_nil
  | some first more =>
    simp only [Arguments.yield, allValued_append] at h
    exact allScripted_cons (Expr.scripted_tree first h.1)
      (MoreArguments.allScripted_trees more h.2)
termination_by structural d

theorem MoreArguments.allScripted_trees (d : MoreArguments) (h : AllValued P d.yield) :
    AllScripted P d.trees := by
  cases d with
  | done => exact allScripted_nil
  | more argument rest =>
    simp only [MoreArguments.yield, allValued_cons, allValued_append] at h
    exact allScripted_cons (Expr.scripted_tree argument h.2.1)
      (MoreArguments.allScripted_trees rest h.2.2)
termination_by structural d

end

mutual

theorem Statement.scripted_tree (d : Statement) (h : AllValued P d.yield) :
    d.tree.Scripted P := by
  cases d with
  | declaration isConst name initial =>
    simp only [Statement.yield, allValued_cons] at h
    exact scripted_declaration isConst name (initial.scripted_tree h.2.2.2)
  | set name properties value =>
    simp only [Statement.yield, allValued_cons, allValued_append] at h
    exact scripted_assignment (scripted_identifier name properties)
      (value.scripted_tree h.2.2.2.2)
  | func name params body =>
    simp only [Statement.yield, allValued_cons, allValued_append] at h
    exact scripted_function name params
      (scripted_block (Statements.allScripted_trees body h.2.2.2.2.2.2.1))
  | bareReturn => exact scripted_giveBack scripted_absent
  | giveBack value =>
    simp only [Statement.yield, allValued_cons] at h
    exact scripted_giveBack (value.scripted_tree h.2)
  | choice condition thenPart =>
    simp only [Statement.yield, allValued_cons, allValued_append] at h
    exact scripted_choice (condition.scripted_tree h.2.1)
      (scripted_block (Statements.allScripted_trees thenPart h.2.2.2.1)) scripted_absent
  | choiceElse condition thenPart elsePart =>
    simp only [Statement.yield, allValued_cons, allValued_append] at h
    exact scripted_choice (condition.scripted_tree h.2.1)
      (scripted_block (Statements.allScripted_trees thenPart h.2.2.2.1))
      (scripted_block (Statements.allScripted_trees elsePart h.2.2.2.2.2.1))
  | call inner => exact scripted_callStatement (inner.scripted_tree h)
termination_by structural d

theorem Statements.allScripted_trees (d : Statements) (h : AllValued P d.yield) :
    AllScripted P d.trees := by
  cases d with
  | nil => exact allScripted_nil
  | cons first rest =>
    simp only [Statements.yield, allValued_append] at h
    exact allScripted_cons (Statement.scripted_tree first h.1)
      (Statements.allScripted_trees rest h.2)
termination_by structural d

end

/-- The numerals of a source are written as such, so what holds of all of them holds of these. -/
theorem allValued_of_tokenize
    (numerals : ∀ text, Lexer.IsNumeral text → P (numeralValue (String.ofList text)))
    {source : String} {tokens : List Token} {lexemes : List Lexeme}
    (h : tokenize source = .ok tokens) (same : lexemes = tokens.map Token.lexeme) :
    AllValued P lexemes := by
  intro lexeme hlexeme
  rw [same] at hlexeme
  obtain ⟨token, htoken, rfl⟩ := List.mem_map.mp hlexeme
  have written := Parser.written_of_tokenize h token htoken
  cases hnumber : token.lexeme with
  | number numeral =>
    rw [hnumber] at written
    have value := numerals numeral.toList written
    rwa [String.ofList_toList] at value
  | _ => trivial

end Grammar

section

variable {P : Number → Prop}
  (numerals : ∀ text, Lexer.IsNumeral text → P (Grammar.numeralValue (String.ofList text)))

include numerals

/-- The tree of a script is a block of statements. -/
theorem parseProgram_scripted {source : String} {tree : Node}
    (h : parseProgram source = .ok tree) : tree.Scripted P := by
  obtain ⟨tokens, htokens, d, hyield, -, rfl⟩ := parseProgram_eq_ok_iff.mp h
  exact Node.scripted_block
    (d.allScripted_trees (Grammar.allValued_of_tokenize numerals htokens hyield))

end

/-- A numeral is the very text that its number is read from. -/
theorem readable_numeralValue (text : List Char) (h : Lexer.IsNumeral text) :
    Datum.Readable (Grammar.numeralValue (String.ofList text)) := by
  obtain ⟨d, hread, -⟩ := h.exists_read
  rw [Grammar.numeralValue, hread]
  exact ⟨rfl, String.ofList text, hread⟩

theorem parseProgram_storable {source : String} {tree : Node}
    (h : parseProgram source = .ok tree) : tree.Storable Datum.Readable :=
  (parseProgram_scripted readable_numeralValue h).storable

end ScopeScript
