import ScopeScript.Proofs.Number.Shown
import ScopeScript.Proofs.Tree.Storable
import ScopeScript.Tree.Agreement
set_option autoImplicit false

/-!
# Tree: stored trees are loaded as they were

Storing loses nothing of a tree that a document can have.  Nodes come back with the same fields and
literals with the same kind of value, booleans and texts as they were.  A number comes back as what
its text shows: the same value, and the same triple if it has no sign and no positive exponent.
Stored once more, the tree gives the same document.

The argument is on data, where storing and loading are inverse to each other but for the numbers; a
tree and its datum determine each other.
-/

namespace ScopeScript

/-! ## Numbers -/

namespace Number

/-- Two finite numbers of one value; a number without a sign and without a positive exponent only
matches itself. -/
def Matches : Number → Number → Prop
  | .finite d, .finite e => d.value = e.value ∧ (d.negative = false → d.exponent ≤ 0 → d = e)
  | _, _ => False

/-- The number that the text of a number shows. -/
def shown : Number → Number
  | .finite d => .finite d.shown
  | special => special

theorem isFinite_shown (n : Number) : n.shown.isFinite = n.isFinite := by
  cases n <;> rfl

theorem fixed_shown (n : Number) : n.shown.fixed = n.fixed := by
  cases n with
  | finite d => exact d.fixed_shown
  | _ => rfl

theorem reduced_shown (n : Number) : n.shown.reduced = n.reduced := by
  cases n with
  | finite d => exact congrArg finite d.reduced_shown
  | _ => rfl

theorem read?_fixed_eq_shown {n : Number} (h : n.isFinite = true) :
    read? n.fixed = some n.shown := by
  cases n with
  | finite d => exact d.read?_fixed_eq_shown
  | _ => cases h

theorem matches_shown {n : Number} (h : n.isFinite = true) : n.Matches n.shown := by
  cases n with
  | finite d =>
    exact ⟨d.value_shown.symm, fun sign small => (Decimal.shown_eq_self sign small).symm⟩
  | _ => cases h

end Number

/-! ## Data -/

namespace Datum

mutual

/-- Data that are the same but for number literals, which match. -/
inductive Matches : Datum → Datum → Prop
  | refl (datum : Datum) : Matches datum datum
  | number {m n : Number} (h : m.Matches n) : Matches (.literal (.number m)) (.literal (.number n))
  | tuple {items others : List Datum} (h : MatchAll items others) :
      Matches (.tuple items) (.tuple others)
  | record {kind : NodeKind} {fields others : List Datum} (h : MatchAll fields others) :
      Matches (.record kind fields) (.record kind others)

/-- As many data of which each matches the one at its place. -/
inductive MatchAll : List Datum → List Datum → Prop
  | nil : MatchAll [] []
  | cons {datum other : Datum} {rest others : List Datum} (first : Matches datum other)
      (more : MatchAll rest others) : MatchAll (datum :: rest) (other :: others)

end

mutual

/-- What is loaded of a datum that was stored. -/
def shown : Datum → Datum
  | .literal (.number n) => .literal (.number n.shown)
  | .tuple items => .tuple (shownAll items)
  | .record kind fields => .record kind (shownAll fields)
  | datum => datum

/-- What is loaded of several data that were stored. -/
def shownAll : List Datum → List Datum
  | [] => []
  | item :: rest => shown item :: shownAll rest

end

theorem length_shownAll (data : List Datum) : (shownAll data).length = data.length := by
  induction data with
  | nil => rfl
  | cons datum rest ih => simp [shownAll, ih]

theorem isNode_shown (datum : Datum) : datum.shown.isNode = datum.isNode := by
  cases datum with
  | literal value => cases value <;> rfl
  | _ => rfl

mutual

/-- A stored datum is loaded. -/
theorem load_store (datum : Datum) (stored : datum.Stored Finite) :
    load datum.store = .ok datum.shown := by
  match datum, stored with
  | .nothing, _ | .boolean _, _ | .integer _, _ | .float _, _ | .text _, _ => rfl
  | .literal (.boolean value), _ => exact load_boolean value
  | .literal (.text value), _ => exact load_text value
  | .literal (.number n), finite =>
    exact load_number (Number.read?_fixed_eq_shown finite) ((Number.isFinite_shown n).trans finite)
  | .tuple items, stored =>
    rw [store, load, loadItems_storeAll items stored]
    rfl
  | .record kind fields, stored =>
    exact load_record ((length_shownAll fields).trans stored.1) (loadItems_storeAll fields stored.2)
termination_by structural datum

theorem loadItems_storeAll (data : List Datum) (stored : StoredAll Finite data) :
    loadItems (storeAll data) = .ok (shownAll data) := by
  cases data with
  | nil => rfl
  | cons datum rest =>
    rw [storeAll, loadItems, load_store datum stored.1, loadItems_storeAll rest stored.2]
    rfl
termination_by structural data

end

mutual

/-- What is loaded is stored as before. -/
theorem store_shown (datum : Datum) : datum.shown.store = datum.store := by
  match datum with
  | .literal (.number n) => simp only [shown, store, n.fixed_shown]
  | .tuple items => rw [shown, store, store, storeAll_shownAll items]
  | .record kind fields => rw [shown, store, store, storeAll_shownAll fields]
  | .nothing | .boolean _ | .integer _ | .float _ | .number _ | .text _ => rfl
  | .literal .nothing | .literal (.boolean _) | .literal (.integer _) | .literal (.float _)
  | .literal (.text _) | .literal (.tuple _) | .literal (.literal _) | .literal (.record _ _) => rfl
termination_by structural datum

theorem storeAll_shownAll (data : List Datum) : storeAll (shownAll data) = storeAll data := by
  cases data with
  | nil => rfl
  | cons datum rest => rw [shownAll, storeAll, storeAll, store_shown datum, storeAll_shownAll rest]
termination_by structural data

end

mutual

/-- What is loaded is equal to what was stored. -/
theorem key_shown (datum : Datum) : datum.shown.key = datum.key := by
  match datum with
  | .literal (.number n) => simp only [shown, key, n.reduced_shown]
  | .tuple items => rw [shown, key, key, keys_shownAll items]
  | .record kind fields => rw [shown, key, key, keys_shownAll fields]
  | .nothing | .boolean _ | .integer _ | .float _ | .number _ | .text _ => rfl
  | .literal .nothing | .literal (.boolean _) | .literal (.integer _) | .literal (.float _)
  | .literal (.text _) | .literal (.tuple _) | .literal (.literal _) | .literal (.record _ _) => rfl
termination_by structural datum

theorem keys_shownAll (data : List Datum) : keys (shownAll data) = keys data := by
  cases data with
  | nil => rfl
  | cons datum rest => rw [shownAll, keys, keys, key_shown datum, keys_shownAll rest]
termination_by structural data

end

mutual

/-- What is loaded matches what was stored. -/
theorem matches_shown (datum : Datum) (stored : datum.Stored Finite) :
    datum.Matches datum.shown := by
  match datum, stored with
  | .literal (.number n), finite => exact .number (Number.matches_shown finite)
  | .tuple items, stored => exact .tuple (matchAll_shownAll items stored)
  | .record kind fields, stored => exact .record (matchAll_shownAll fields stored.2)
  | .nothing, _ | .boolean _, _ | .integer _, _ | .float _, _ | .text _, _ => exact .refl _
  | .literal (.boolean _), _ | .literal (.text _), _ => exact .refl _
termination_by structural datum

theorem matchAll_shownAll (data : List Datum) (stored : StoredAll Finite data) :
    MatchAll data (shownAll data) := by
  cases data with
  | nil => exact .nil
  | cons datum rest =>
    exact .cons (matches_shown datum stored.1) (matchAll_shownAll rest stored.2)
termination_by structural data

end

end Datum

/-! ## Trees -/

namespace Node

mutual

/-- The datum of the tree of a datum is that datum.  So are the data of the trees of its items if
it is a tuple: a block or a call takes those from a field. -/
theorem toDatum_ofDatum (datum : Datum) :
    (ofDatum datum).toDatum = .ok datum ∧
      ∀ items, datum = .tuple items → toData (ofData items) = .ok items := by
  cases datum with
  | literal value =>
    refine ⟨?_, by simp⟩
    cases value <;> rfl
  | tuple items =>
    refine ⟨rfl, ?_⟩
    rintro _ ⟨rfl⟩
    have parts := toDatum_ofData items
    induction items with
    | nil => rfl
    | cons item rest ih =>
      simp only [List.mem_cons, forall_eq_or_imp] at parts
      rw [ofData, toData, parts.1.1, ih parts.2]
      rfl
  | record kind fields =>
    refine ⟨?_, by simp⟩
    have part : ∀ datum ∈ fields, (ofDatum datum).toDatum = .ok datum :=
      fun datum hdatum => (toDatum_ofData fields datum hdatum).1
    have listed : ∀ items, .tuple items ∈ fields → toData (ofData items) = .ok items :=
      fun items hitems => (toDatum_ofData fields _ hitems).2 items rfl
    unfold ofDatum
    split
    all_goals first
    | rfl
    | rename_i same
      cases same
      all_goals simp [toDatum, declarationKind, part, listed]
  | _ => exact ⟨rfl, by simp⟩
termination_by structural datum

theorem toDatum_ofData (data : List Datum) :
    ∀ datum ∈ data, (ofDatum datum).toDatum = .ok datum ∧
      ∀ items, datum = .tuple items → toData (ofData items) = .ok items := by
  cases data with
  | nil => simp
  | cons first rest =>
    have parts := toDatum_ofDatum first
    intro datum hdatum
    rcases List.mem_cons.mp hdatum with same | hdatum
    · rw [same]
      exact parts
    · exact toDatum_ofData rest datum hdatum
termination_by structural data

end

/-- Trees of data that match. -/
def Matches (a b : Node) : Prop := ∃ x y, ofDatum x = a ∧ ofDatum y = b ∧ x.Matches y

/-- Some document is loaded as the tree. -/
def Loadable (node : Node) : Prop := ∃ document, load document = .ok node

/-- The tree can be stored, is loaded as one that matches it and is equal to it, and that one is
stored as before. -/
def Survives (node : Node) : Prop :=
  ∃ stored again, node.store = .ok stored ∧ load stored = .ok again ∧
    node.Matches again ∧ node.agrees again = true ∧ again.store = .ok stored

theorem store_ofDatum (datum : Datum) : (ofDatum datum).store = .ok datum.store := by
  rw [store, (toDatum_ofDatum datum).1]
  rfl

theorem agrees_ofDatum (a b : Datum) : (ofDatum a).agrees (ofDatum b) = a.agrees b := by
  rw [agrees, (toDatum_ofDatum a).1, (toDatum_ofDatum b).1]

/-- With finite numbers, a tree of a node survives. -/
theorem Storable.survives {node : Node} (h : node.Storable Datum.Finite) : node.Survives := by
  obtain ⟨datum, rfl, isNode, stored⟩ := h
  have loaded : load datum.store = .ok (ofDatum datum.shown) :=
    load_eq_ok.mpr ⟨datum.shown, datum.load_store stored, datum.isNode_shown.trans isNode, rfl⟩
  have equal : datum.agrees datum.shown = true := by
    simp [Datum.agrees, datum.key_shown]
  refine ⟨datum.store, ofDatum datum.shown, store_ofDatum datum, loaded, ?_, ?_, ?_⟩
  · exact ⟨datum, datum.shown, rfl, rfl, datum.matches_shown stored⟩
  · rw [agrees_ofDatum, equal]
  · rw [store_ofDatum, datum.store_shown]

end Node

/-- Storing is lossless: every tree that is loaded from a document survives.  Among those trees are
the trees of scripts, all literals with a boolean, a text or a number that some context has, and
nodes with any data in their fields.  Number literals survive whatever their sign and exponent. -/
theorem stored_trees_survive :
    (∀ document node, Node.load document = .ok node → node.Survives) ∧
    (∀ source tree, parseProgram source = .ok tree → tree.Loadable) ∧
    (∀ value, (Node.literal (.boolean value)).Loadable) ∧
    (∀ value, (Node.literal (.text value)).Loadable) ∧
    (∀ d, (Node.literal (.number (.finite d))).Survives ∧
      (Number.inReach d = true → (Node.literal (.number (.finite d))).Loadable)) ∧
    (∀ kind fields, fields.length = kind.fieldNames.length →
      Datum.StoredAll Datum.Readable fields → (Node.ofDatum (.record kind fields)).Loadable) := by
  refine ⟨?_, ?_, ?_, ?_, ?_, ?_⟩
  · intro document node h
    exact (Node.load_storable h).survives
  · intro source tree h
    exact (parseProgram_storable h).exists_load
  · intro value
    exact ⟨_, Node.load_eq_ok.mpr ⟨_, Datum.load_boolean value, rfl, rfl⟩⟩
  · intro value
    exact (Node.storable_text value).exists_load
  · intro d
    have finite : Datum.Finite (.finite d) := rfl
    refine ⟨(Node.storable_number finite).survives, fun reach => ?_⟩
    exact (Node.storable_number ⟨rfl, d.triple, Decimal.read?_triple reach⟩).exists_load
  · intro kind fields count stored
    exact Node.Storable.exists_load ⟨.record kind fields, rfl, rfl, count, stored⟩

/-- A document in which fields are left out, and others hold a truth value or a node. -/
def oddDocument : Json :=
  .object [("type", .string "Block"), ("statements", .array [
    .object [("type", .string "ReturnStmt")],
    .object [("type", .string "Identifier"), ("name", .bool true)],
    .object [("type", .string "IfStmt"), ("then_block", .null), ("condition",
      .object [("type", .string "Literal"), ("literal_type", .string "Number"),
        ("value", .string "-1.50E+3")])],
    .integer 7])]

/-- The tree of that document. -/
def oddTree : Node :=
  .block [.giveBack .absent, .identifier (.boolean true) (.tuple []),
    .choice (.literal (.number (.finite ⟨true, 150, 1⟩))) .absent .absent,
    .data (.integer 7)]

theorem load_oddDocument : Node.load oddDocument = .ok oddTree := by
  rfl

theorem stored_trees_survive_odd : Node.load oddDocument = .ok oddTree ∧ oddTree.Survives :=
  ⟨load_oddDocument, stored_trees_survive.1 oddDocument oddTree load_oddDocument⟩

end ScopeScript
