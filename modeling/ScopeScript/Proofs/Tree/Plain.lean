import ScopeScript.Proofs.Tree.Literals
import ScopeScript.Proofs.Tree.Storable
set_option autoImplicit false

/-!
# Tree: plain literals

A literal is plain when it holds a truth value, a text or a finite number.  Trees that hosts build
by hand may hold anything; the trees of sources and of stored documents have plain literals only,
for a numeral has no way to write an infinity and a stored number is checked.
-/

namespace ScopeScript

/-! ## Plain trees -/

/-- Whether a script can write the value as a literal. -/
def Value.isPlain : Value → Bool
  | .boolean _ | .text _ => true
  | .number n => n.isFinite
  | _ => false

namespace Node

mutual

/-- Whether all literals of a tree are plain. -/
def isPlain : Node → Bool
  | .literal value => value.isPlain
  | .call _ arguments => arePlain arguments
  | .unary _ operand => isPlain operand
  | .binary _ left right => isPlain left && isPlain right
  | .block statements => arePlain statements
  | .declaration _ _ initial => isPlain initial
  | .assignment target value => isPlain target && isPlain value
  | .function _ _ body => isPlain body
  | .giveBack value => isPlain value
  | .callStatement inner => isPlain inner
  | .choice condition thenBlock elseBlock =>
    isPlain condition && isPlain thenBlock && isPlain elseBlock
  | .identifier _ _ | .absent | .bare _ | .data _ => true

/-- Whether all literals of several trees are plain. -/
def arePlain : List Node → Bool
  | [] => true
  | node :: rest => isPlain node && arePlain rest

end

mutual

theorem isPlain_iff (node : Node) :
    node.isPlain = true ↔ node.EveryLiteral (·.isPlain = true) := by
  cases node with
  | literal value => simp [isPlain]
  | call name arguments => exact arePlain_iff arguments
  | unary op operand => exact isPlain_iff operand
  | binary op left right => simp [isPlain, isPlain_iff left, isPlain_iff right]
  | block statements => exact arePlain_iff statements
  | declaration isConst name initial => exact isPlain_iff initial
  | assignment target value => simp [isPlain, isPlain_iff target, isPlain_iff value]
  | function name params body => exact isPlain_iff body
  | giveBack value => exact isPlain_iff value
  | callStatement inner => exact isPlain_iff inner
  | choice condition thenBlock elseBlock =>
    simp [isPlain, isPlain_iff condition, isPlain_iff thenBlock, isPlain_iff elseBlock, and_assoc]
  | identifier _ _ | absent | bare _ | data _ => simp [isPlain, EveryLiteral, literals]
termination_by structural node

theorem arePlain_iff (nodes : List Node) :
    arePlain nodes = true ↔ EveryLiteralIn (·.isPlain = true) nodes := by
  cases nodes with
  | nil => simp [arePlain, EveryLiteralIn, literalsIn]
  | cons node rest => simp [arePlain, isPlain_iff node, arePlain_iff rest]
termination_by structural nodes

end

end Node

/-! ## Trees of data -/

namespace Node

variable {P : Number → Prop}

mutual

/-- The tree of a datum is plain, and so are the trees of its items if it is a tuple: a block or a
call takes those from a field. -/
theorem isPlain_ofDatum (finite : ∀ n, P n → n.isFinite = true) (datum : Datum)
    (stored : datum.Stored P) :
    (ofDatum datum).isPlain = true ∧
      ∀ items, datum = .tuple items → arePlain (ofData items) = true := by
  cases datum with
  | literal value =>
    refine ⟨?_, by simp⟩
    cases value with
    | number n => exact finite n stored
    | _ => rfl
  | tuple items =>
    refine ⟨rfl, ?_⟩
    rintro _ ⟨rfl⟩
    simp only [Datum.Stored] at stored
    have parts := isPlain_ofData finite items stored
    clear stored
    induction items with
    | nil => rfl
    | cons item rest ih =>
      simp only [List.mem_cons, forall_eq_or_imp] at parts
      simp [ofData, arePlain, parts.1.1, ih parts.2]
  | record kind fields =>
    refine ⟨?_, by simp⟩
    have part : ∀ datum ∈ fields, (ofDatum datum).isPlain = true :=
      fun datum hdatum => (isPlain_ofData finite fields stored.2 datum hdatum).1
    have listed : ∀ items, .tuple items ∈ fields → arePlain (ofData items) = true :=
      fun items hitems => (isPlain_ofData finite fields stored.2 _ hitems).2 items rfl
    unfold ofDatum
    split
    all_goals first
    | rfl
    | rename_i same
      cases same
      all_goals simp [isPlain, part, listed]
  | _ => exact ⟨rfl, by simp⟩
termination_by structural datum

theorem isPlain_ofData (finite : ∀ n, P n → n.isFinite = true) (data : List Datum)
    (stored : Datum.StoredAll P data) :
    ∀ datum ∈ data, (ofDatum datum).isPlain = true ∧
      ∀ items, datum = .tuple items → arePlain (ofData items) = true := by
  cases data with
  | nil => simp
  | cons first rest =>
    have parts := isPlain_ofDatum finite first stored.1
    intro datum hdatum
    rcases List.mem_cons.mp hdatum with same | hdatum
    · rw [same]
      exact parts
    · exact isPlain_ofData finite rest stored.2 datum hdatum
termination_by structural data

end

theorem Storable.isPlain (finite : ∀ n, P n → n.isFinite = true) {node : Node}
    (h : node.Storable P) : node.isPlain = true := by
  obtain ⟨datum, rfl, -, stored⟩ := h
  exact (isPlain_ofDatum finite datum stored).1

end Node

end ScopeScript
