import ScopeScript.Proofs.Json.RoundTrip
import ScopeScript.Proofs.Tree.StoredRoundTrip
set_option autoImplicit false

/-!
# Tree: the stored trees of scripts

The tree of a script is loaded from its document as it was.  In general a number literal may come
back as another triple of the same value; but a numeral has no sign and no exponent, so its text
shows all of it, trailing zeros included.

The document holds no numbers and names every member of a node once, so nothing is lost when it is
written as a text.
-/

namespace ScopeScript

/-! ## Numbers -/

/-- A finite number of which the text shows everything. -/
def Number.Verbatim (n : Number) : Prop := n.isFinite = true ∧ n.shown = n

theorem verbatim_numeralValue (text : List Char) (h : Lexer.IsNumeral text) :
    (Grammar.numeralValue (String.ofList text)).Verbatim := by
  obtain ⟨d, hread, sign, small⟩ := h.exists_read
  rw [Grammar.numeralValue, hread]
  exact ⟨rfl, congrArg Number.finite (Decimal.shown_eq_self sign small)⟩

/-! ## Data -/

namespace Datum

mutual

/-- Scripts have data that are loaded as they were. -/
theorem shown_eq_self (datum : Datum) (h : datum.Scripted Number.Verbatim) :
    datum.shown = datum := by
  match datum, h with
  | .nothing, _ | .text _, _ | .literal (.text _), _ => rfl
  | .literal (.number n), h => rw [shown, h.2]
  | .tuple items, h => rw [shown, shownAll_eq_self items h]
  | .record kind fields, h => rw [shown, shownAll_eq_self fields h.2]
termination_by structural datum

theorem shownAll_eq_self (data : List Datum) (h : ScriptedAll Number.Verbatim data) :
    shownAll data = data := by
  cases data with
  | nil => rfl
  | cons datum rest => rw [shownAll, shown_eq_self datum h.1, shownAll_eq_self rest h.2]
termination_by structural data

end

theorem length_storeAll (data : List Datum) : (storeAll data).length = data.length := by
  induction data with
  | nil => rfl
  | cons datum rest ih => simp [storeAll, ih]

theorem numberless_zip (names : List String) {documents : List Json}
    (h : Json.NumberlessItems documents) : Json.NumberlessMembers (names.zip documents) := by
  induction names generalizing documents with
  | nil => trivial
  | cons name rest ih =>
    cases documents with
    | nil => trivial
    | cons document others => exact ⟨h.1, ih h.2⟩

/-- A literal is stored as a document without numbers if its value is. -/
theorem numberless_literal (literalType : String) {value : Json} (h : value.Numberless) :
    (literalObject literalType value).Numberless := by
  refine ⟨?_, trivial, h, trivial, trivial⟩
  simp [Entries.keys]

variable {P : Number → Prop}

mutual

/-- What scripts have is stored as a document without numbers. -/
theorem numberless_store (datum : Datum) (h : datum.Scripted P) : datum.store.Numberless := by
  match datum, h with
  | .nothing, _ | .text _, _ => trivial
  | .literal (.text _), _ | .literal (.number _), _ => exact numberless_literal _ trivial
  | .tuple items, h => exact numberless_storeAll items h
  | .record kind fields, h =>
    refine ⟨?_, trivial, numberless_zip _ (numberless_storeAll fields h.2)⟩
    have names : (kind.fieldNames.zip (storeAll fields)).map Prod.fst = kind.fieldNames :=
      List.map_fst_zip (by simp [length_storeAll, h.1])
    simpa [Entries.keys, names] using nodup_fieldNames kind
termination_by structural datum

theorem numberless_storeAll (data : List Datum) (h : ScriptedAll P data) :
    Json.NumberlessItems (storeAll data) := by
  cases data with
  | nil => trivial
  | cons datum rest => exact ⟨numberless_store datum h.1, numberless_storeAll rest h.2⟩
termination_by structural data

end

end Datum

/-! ## Trees -/

/-- The tree of a script is stored as a document without numbers and loaded from it as it was. -/
theorem parseProgram_stored {source : String} {tree : Node} (h : parseProgram source = .ok tree) :
    ∃ document, tree.store = .ok document ∧ document.Numberless ∧
      Node.load document = .ok tree := by
  obtain ⟨datum, rfl, isNode, scripted⟩ := parseProgram_scripted verbatim_numeralValue h
  have finite : datum.Stored Datum.Finite := scripted.stored (fun _ => And.left) datum
  have loaded : Datum.load datum.store = .ok datum := by
    rw [datum.load_store finite, datum.shown_eq_self scripted]
  exact ⟨datum.store, Node.store_ofDatum datum, datum.numberless_store scripted,
    Node.load_eq_ok.mpr ⟨datum, loaded, isNode, rfl⟩⟩

end ScopeScript
