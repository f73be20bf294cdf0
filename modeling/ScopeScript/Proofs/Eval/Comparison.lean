import Mathlib.Data.Char
import Mathlib.Data.List.Lex
import Mathlib.Data.String.Basic
import Mathlib.Order.Compare
import ScopeScript.Eval.Operator
import ScopeScript.Proofs.Number.Order
set_option autoImplicit false

/-!
# Eval: comparisons

The operators `=` and `<` go their own ways: one looks at all values and the other at numbers and
strings, each as they are written.  They agree, because both depend on no more of a value than its
content: the rational that a number stands for, the characters of a string, what a function or a
handle names.
-/

namespace ScopeScript

namespace Value

/-! ## Contents -/

mutual

/-- What all values that are one and the same have in common: an object has its name, whatever its
class. -/
def identity : Value → Value
  | .handle target copy => .handle (identity target) copy
  | .list items copy => .list (identities items) copy
  | .object id _ => .object id .dict
  | value => value

/-- The same for several values. -/
def identities : List Value → List Value
  | [] => []
  | value :: rest => identity value :: identities rest

end

mutual

theorem same_iff : ∀ a b : Value, same a b = true ↔ identity a = identity b
  | .handle a copy, b => by
    cases b with
    | handle b copy' => simp [same, identity, same_iff a b, and_comm]
    | _ => simp [same, identity]
  | .list as copy, b => by
    cases b with
    | list bs copy' => simp [same, identity, sameAll_iff as bs, and_comm]
    | _ => simp [same, identity]
  | .boolean _, b | .number _, b | .text _, b | .function _ _, b | .sentinel _, b | .nothing, b
  | .integer _, b | .float _, b | .object _ _, b => by cases b <;> simp [same, identity]

theorem sameAll_iff : ∀ as bs : List Value, sameAll as bs = true ↔ identities as = identities bs
  | [], [] => by simp [sameAll, identities]
  | [], _ :: _ | _ :: _, [] => by simp [sameAll, identities]
  | a :: as, b :: bs => by simp [sameAll, identities, same_iff a b, sameAll_iff as bs]

end

/-- What comparisons depend on. -/
inductive Content where
  | truth (value : Bool)
  | rational (value : ℚ)
  | text (value : String)
  | function (home : ScopeId) (name : Name)
  | handle (target : Value) (copy : Copy)

/-- The content of a value that scripts compute with. -/
inductive HasContent : Value → Content → Prop
  | truth (value : Bool) : HasContent (.boolean value) (.truth value)
  | rational (d : Decimal) : HasContent (.number (.finite d)) (.rational d.value)
  | text (s : String) : HasContent (.text s) (.text s)
  | function (home : ScopeId) (name : Name) :
    HasContent (.function home name) (.function home name)
  | handle (target : Value) (copy : Copy) :
    HasContent (.handle target copy) (.handle target.identity copy)

/-- The name of the type that the values of a content have. -/
def Content.typeName : Content → String
  | .truth _ => "Boolean"
  | .rational _ => "Number"
  | .text _ => "String"
  | .function _ _ => "Function"
  | .handle _ _ => "NativeObject"

/-- The numbers of the characters of a string. -/
def codePoints (s : String) : List ℕ := s.toList.map Char.toNat

/-- How two things of a linear order lie. -/
def ordering {α : Type} [LinearOrder α] (x y : α) : Ordering := cmp x y

/-- The order of two contents: that of rationals, or that of strings by the first characters that
differ. -/
def Content.order? : Content → Content → Option Ordering
  | .rational x, .rational y => some (ordering x y)
  | .text a, .text b => some (ordering (codePoints a) (codePoints b))
  | _, _ => none

variable {a b : Value} {x y z : Content}

theorem exists_content (script : a.isScript = true) : ∃ x, a.HasContent x := by
  cases a with
  | boolean value => exact ⟨_, .truth value⟩
  | number n =>
    cases n with
    | finite d => exact ⟨_, .rational d⟩
    | _ => cases script
  | text s => exact ⟨_, .text s⟩
  | function home name => exact ⟨_, .function home name⟩
  | handle target copy => exact ⟨_, .handle target copy⟩
  | _ => cases script

theorem HasContent.typeName (h : a.HasContent x) : a.typeName = x.typeName := by
  cases h <;> rfl

/-! ## What the operators compute -/

/-- Values are equal when their contents are. -/
theorem equal_of_content (hx : a.HasContent x) (hy : b.HasContent y) (host : Host) :
    ∃ truth, a.equal host b = .ok truth ∧ (truth = true ↔ x = y) := by
  cases hx with
  | truth value =>
    cases hy with
    | truth value' => exact ⟨value == value', rfl, by simp⟩
    | _ => exact ⟨false, by simp [Value.equal, Value.typeName], by simp⟩
  | rational d =>
    cases hy with
    | rational d' => exact ⟨_, Number.equalOrInvalid_finite d d', by simp⟩
    | _ => exact ⟨false, by simp [Value.equal, Value.typeName], by simp⟩
  | text s =>
    cases hy with
    | text s' => exact ⟨s == s', rfl, by simp⟩
    | _ => exact ⟨false, by simp [Value.equal, Value.typeName], by simp⟩
  | function home name =>
    cases hy with
    | function home' name' => exact ⟨home == home' && name == name', rfl, by simp⟩
    | _ => exact ⟨false, by simp [Value.equal, Value.typeName], by simp⟩
  | handle target copy =>
    cases hy with
    | handle target' copy' =>
      exact ⟨copy == copy' && same target target', rfl, by simp [same_iff, and_comm]⟩
    | _ => exact ⟨false, by simp [Value.equal, Value.typeName], by simp⟩

theorem codePoints_injective : Function.Injective codePoints := by
  intro a b same
  have inj : Function.Injective Char.toNat := fun c d h => Char.toNat_inj.mp h
  exact String.toList_inj.mp (List.map_injective_iff.mpr inj same)

/-- Strings are ordered by the numbers of their characters. -/
theorem text_lt_iff {a b : String} : a < b ↔ codePoints a < codePoints b := by
  have ordered : StrictMono (List.map Char.toNat) := fun _ _ before =>
    List.map_lt (fun _ _ h => h) before
  rw [String.lt_iff_toList_lt, codePoints, codePoints, ordered.lt_iff_lt]

section Ordering

variable {α : Type} [LinearOrder α] {x y z : α}

theorem ordering_eq_lt_iff : ordering x y = .lt ↔ x < y := cmp_eq_lt_iff x y

theorem ordering_eq_eq_iff : ordering x y = .eq ↔ x = y := cmp_eq_eq_iff x y

theorem swap_ordering (x y : α) : (ordering x y).swap = ordering y x := cmp_swap x y

theorem decide_lt_eq (x y : α) : decide (x < y) = (ordering x y == .lt) := by
  rw [Bool.eq_iff_iff, decide_eq_true_iff, beq_iff_eq, ordering_eq_lt_iff]

theorem ordering_trans (h : ordering x y = .lt) (h' : ordering y z = .lt) :
    ordering x z = .lt :=
  ordering_eq_lt_iff.mpr ((ordering_eq_lt_iff.mp h).trans (ordering_eq_lt_iff.mp h'))

end Ordering

/-- The order of values is that of their contents, where these have one. -/
theorem less_of_content (hx : a.HasContent x) (hy : b.HasContent y) (operator : String) :
    Value.less operator a b =
      match x.order? y with
      | some order => .ok (order == .lt)
      | none => .error (.operand (.text operator) "Number or String") := by
  cases hx with
  | rational d =>
    cases hy with
    | rational d' =>
      have order : Decimal.compare d d' = ordering d.value d'.value :=
        (Decimal.compares_value d d').cmp_eq.symm
      simp only [Value.less, Number.less, Number.order?, Content.order?, order]
    | _ => rfl
  | text s =>
    cases hy with
    | text s' =>
      have order : decide (s < s') = (ordering (codePoints s) (codePoints s') == .lt) := by
        rw [← decide_lt_eq, decide_eq_decide, text_lt_iff]
      simp only [Value.less, Content.order?, order]
    | _ => rfl
  | _ => cases hy <;> rfl

/-! ## Laws of contents -/

namespace Content

theorem order?_swap (x y : Content) : y.order? x = (x.order? y).map Ordering.swap := by
  cases x <;> cases y <;> simp [order?, swap_ordering]

/-- Contents that lie at the same place are the same. -/
theorem order?_eq_iff {order : Ordering} (h : x.order? y = some order) :
    order = .eq ↔ x = y := by
  cases x <;> cases y <;> cases h
  · simp [ordering_eq_eq_iff]
  · simp [ordering_eq_eq_iff, codePoints_injective.eq_iff]

theorem order?_trans (h : x.order? y = some .lt) (h' : y.order? z = some .lt) :
    x.order? z = some .lt := by
  cases x <;> cases y <;> simp only [order?, reduceCtorEq, Option.some.injEq] at h
  all_goals cases z <;> simp only [order?, reduceCtorEq, Option.some.injEq] at h' ⊢
  · exact ordering_trans h h'
  · exact ordering_trans h h'

/-- Numbers have an order, and so have strings. -/
theorem isSome_order? (x y : Content) : (x.order? y).isSome = true ↔
    x.typeName = "Number" ∧ y.typeName = "Number" ∨
      x.typeName = "String" ∧ y.typeName = "String" := by
  cases x <;> cases y <;> simp [order?, typeName]

end Content

/-- Two numbers or two strings. -/
def HaveOrder (a b : Value) : Prop :=
  a.typeName = "Number" ∧ b.typeName = "Number" ∨ a.typeName = "String" ∧ b.typeName = "String"

theorem haveOrder_of_content (hx : a.HasContent x) (hy : b.HasContent y) :
    a.HaveOrder b ↔ ∃ order, x.order? y = some order := by
  rw [HaveOrder, hx.typeName, hy.typeName, ← Content.isSome_order?, Option.isSome_iff_exists]

end Value

namespace BinaryOp

open Value (Content)

variable {ctx : Context} {host : Host} {a b : Value} {x y : Content}

theorem apply_equal_of_content (ctx : Context) (host : Host) (hx : a.HasContent x)
    (hy : b.HasContent y) :
    ∃ truth, equal.apply ctx host a b = .ok (.boolean truth) ∧
      unequal.apply ctx host a b = .ok (.boolean !truth) ∧ (truth = true ↔ x = y) := by
  obtain ⟨truth, computed, same⟩ := Value.equal_of_content hx hy host
  refine ⟨truth, ?_, ?_, same⟩
  · rw [apply, computed]
    rfl
  · rw [apply, computed]
    rfl

theorem apply_equal_eq_true_iff (hx : a.HasContent x) (hy : b.HasContent y) :
    equal.apply ctx host a b = .ok (.boolean true) ↔ x = y := by
  obtain ⟨truth, computed, -, same⟩ := apply_equal_of_content ctx host hx hy
  rw [computed, ← same]
  simp

/-- What the operators for order make of the order that there is, or is not. -/
def ofOrder (op : BinaryOp) (asked : Ordering) : Option Ordering → Except Error Value
  | some order => .ok (.boolean (order == asked))
  | none => .error (.operand (.text op.spelling) "Number or String")

theorem apply_less_of_content (hx : a.HasContent x) (hy : b.HasContent y) :
    less.apply ctx host a b = less.ofOrder .lt (x.order? y) := by
  rw [apply, Value.less_of_content hx hy]
  cases x.order? y <;> rfl

theorem apply_greater_of_content (hx : a.HasContent x) (hy : b.HasContent y) :
    greater.apply ctx host a b = greater.ofOrder .gt (x.order? y) := by
  rw [apply, Value.less_of_content hy hx, Content.order?_swap x y]
  cases x.order? y with
  | none => rfl
  | some order => cases order <;> rfl

theorem ofOrder_eq_true_iff {op : BinaryOp} {asked : Ordering} {order? : Option Ordering} :
    op.ofOrder asked order? = .ok (.boolean true) ↔ order? = some asked := by
  cases order? <;> simp [ofOrder]

/-! ## Laws of the operators -/

/-- The laws of `=` and `<>` between values that scripts compute with. -/
structure EqualityLaws (ctx : Context) (host : Host) : Prop where
  decided : ∀ a b : Value, a.isScript = true → b.isScript = true →
    ∃ truth, equal.apply ctx host a b = .ok (.boolean truth) ∧
      unequal.apply ctx host a b = .ok (.boolean !truth)
  variants : ∀ a b : Value, a.isScript = true → b.isScript = true →
    equal.apply ctx host a b = .ok (.boolean true) → a.typeName = b.typeName
  equivalence : Equivalence fun a b : { value : Value // value.isScript = true } =>
    equal.apply ctx host a b = .ok (.boolean true)

/-- The laws of `<` and `>` between values that scripts compute with. -/
structure OrderLaws (ctx : Context) (host : Host) : Prop where
  /-- of two numbers or two strings, the one is less than, equal to or greater than the other, and
  only one of these -/
  trichotomy : ∀ a b : Value, a.isScript = true → b.isScript = true → a.HaveOrder b →
    ∃ order : Ordering, less.apply ctx host a b = .ok (.boolean (order == .lt)) ∧
      equal.apply ctx host a b = .ok (.boolean (order == .eq)) ∧
      greater.apply ctx host a b = .ok (.boolean (order == .gt))
  /-- no other two values have an order -/
  refused : ∀ a b : Value, a.isScript = true → b.isScript = true → ¬ a.HaveOrder b →
    less.apply ctx host a b = .error (.operand (.text "<") "Number or String") ∧
      greater.apply ctx host a b = .error (.operand (.text ">") "Number or String")
  swap : ∀ (a b : Value) (truth : Bool), a.isScript = true → b.isScript = true →
    (less.apply ctx host a b = .ok (.boolean truth) ↔
      greater.apply ctx host b a = .ok (.boolean truth))
  trans : ∀ a b c : Value, a.isScript = true → b.isScript = true → c.isScript = true →
    less.apply ctx host a b = .ok (.boolean true) →
    less.apply ctx host b c = .ok (.boolean true) →
    less.apply ctx host a c = .ok (.boolean true)
  /-- equal values have the same place, and are refused alike -/
  congr : ∀ a a' b b' : Value, a.isScript = true → a'.isScript = true → b.isScript = true →
    b'.isScript = true → equal.apply ctx host a a' = .ok (.boolean true) →
    equal.apply ctx host b b' = .ok (.boolean true) →
    less.apply ctx host a b = less.apply ctx host a' b' ∧
      greater.apply ctx host a b = greater.apply ctx host a' b'
  numbers : ∀ d d' : Decimal,
    less.apply ctx host (.number (.finite d)) (.number (.finite d')) =
      .ok (.boolean (decide (d.value < d'.value)))
  texts : ∀ s s' : String,
    less.apply ctx host (.text s) (.text s') =
      .ok (.boolean (decide (Value.codePoints s < Value.codePoints s')))

theorem equalityLaws (ctx : Context) (host : Host) : EqualityLaws ctx host where
  decided a b scriptA scriptB := by
    obtain ⟨x, hx⟩ := Value.exists_content scriptA
    obtain ⟨y, hy⟩ := Value.exists_content scriptB
    obtain ⟨truth, computed, negated, -⟩ := apply_equal_of_content ctx host hx hy
    exact ⟨truth, computed, negated⟩
  variants a b scriptA scriptB same := by
    obtain ⟨x, hx⟩ := Value.exists_content scriptA
    obtain ⟨y, hy⟩ := Value.exists_content scriptB
    rw [hx.typeName, hy.typeName, (apply_equal_eq_true_iff hx hy).mp same]
  equivalence := by
    constructor
    · rintro ⟨a, scriptA⟩
      obtain ⟨x, hx⟩ := Value.exists_content scriptA
      exact (apply_equal_eq_true_iff hx hx).mpr rfl
    · rintro ⟨a, scriptA⟩ ⟨b, scriptB⟩ same
      obtain ⟨x, hx⟩ := Value.exists_content scriptA
      obtain ⟨y, hy⟩ := Value.exists_content scriptB
      exact (apply_equal_eq_true_iff hy hx).mpr ((apply_equal_eq_true_iff hx hy).mp same).symm
    · rintro ⟨a, scriptA⟩ ⟨b, scriptB⟩ ⟨c, scriptC⟩ same same'
      obtain ⟨x, hx⟩ := Value.exists_content scriptA
      obtain ⟨y, hy⟩ := Value.exists_content scriptB
      obtain ⟨z, hz⟩ := Value.exists_content scriptC
      refine (apply_equal_eq_true_iff hx hz).mpr ?_
      exact ((apply_equal_eq_true_iff hx hy).mp same).trans
        ((apply_equal_eq_true_iff hy hz).mp same')

theorem orderLaws (ctx : Context) (host : Host) : OrderLaws ctx host where
  trichotomy a b scriptA scriptB haveOrder := by
    obtain ⟨x, hx⟩ := Value.exists_content scriptA
    obtain ⟨y, hy⟩ := Value.exists_content scriptB
    obtain ⟨order, horder⟩ := (Value.haveOrder_of_content hx hy).mp haveOrder
    obtain ⟨truth, computed, -, same⟩ := apply_equal_of_content ctx host hx hy
    refine ⟨order, ?_, ?_, ?_⟩
    · rw [apply_less_of_content hx hy, horder]
      rfl
    · have decided : truth = (order == .eq) := by
        rw [Bool.eq_iff_iff, same, beq_iff_eq, Content.order?_eq_iff horder]
      rw [computed, decided]
    · rw [apply_greater_of_content hx hy, horder]
      rfl
  refused a b scriptA scriptB noOrder := by
    obtain ⟨x, hx⟩ := Value.exists_content scriptA
    obtain ⟨y, hy⟩ := Value.exists_content scriptB
    have none : x.order? y = none :=
      Option.eq_none_iff_forall_ne_some.mpr fun order h =>
        noOrder ((Value.haveOrder_of_content hx hy).mpr ⟨order, h⟩)
    rw [apply_less_of_content hx hy, apply_greater_of_content hx hy, none]
    exact ⟨rfl, rfl⟩
  swap a b truth scriptA scriptB := by
    obtain ⟨x, hx⟩ := Value.exists_content scriptA
    obtain ⟨y, hy⟩ := Value.exists_content scriptB
    rw [apply_less_of_content hx hy, apply_greater_of_content hy hx, Content.order?_swap x y]
    cases x.order? y with
    | none => exact iff_of_false nofun nofun
    | some order => cases order <;> rfl
  trans a b c scriptA scriptB scriptC before before' := by
    obtain ⟨x, hx⟩ := Value.exists_content scriptA
    obtain ⟨y, hy⟩ := Value.exists_content scriptB
    obtain ⟨z, hz⟩ := Value.exists_content scriptC
    rw [apply_less_of_content hx hy, ofOrder_eq_true_iff] at before
    rw [apply_less_of_content hy hz, ofOrder_eq_true_iff] at before'
    rw [apply_less_of_content hx hz, ofOrder_eq_true_iff]
    exact Content.order?_trans before before'
  congr a a' b b' scriptA scriptA' scriptB scriptB' same same' := by
    obtain ⟨x, hx⟩ := Value.exists_content scriptA
    obtain ⟨x', hx'⟩ := Value.exists_content scriptA'
    obtain ⟨y, hy⟩ := Value.exists_content scriptB
    obtain ⟨y', hy'⟩ := Value.exists_content scriptB'
    obtain rfl := (apply_equal_eq_true_iff hx hx').mp same
    obtain rfl := (apply_equal_eq_true_iff hy hy').mp same'
    rw [apply_less_of_content hx hy, apply_less_of_content hx' hy', apply_greater_of_content hx hy,
      apply_greater_of_content hx' hy']
    exact ⟨rfl, rfl⟩
  numbers d d' := by
    rw [apply_less_of_content (.rational d) (.rational d'), Value.decide_lt_eq]
    rfl
  texts s s' := by
    have order : decide (Value.codePoints s < Value.codePoints s') =
        (Value.ordering (Value.codePoints s) (Value.codePoints s') == .lt) := by
      rw [← Value.decide_lt_eq, decide_eq_decide]
    rw [apply_less_of_content (.text s) (.text s'), order]
    rfl

end BinaryOp

/-- Between values that scripts compute with, equality and order are coherent, whatever the context
of arithmetic and the host.

Equality is an equivalence that keeps to one variant.  Numbers are ordered by their exact values and
strings by the numbers of their characters, and no other values have an order; of two that have one,
just one is less, or both are equal, and equal values can take each other's places. -/
theorem comparisons_are_coherent (ctx : Context) (host : Host) :
    BinaryOp.EqualityLaws ctx host ∧ BinaryOp.OrderLaws ctx host :=
  ⟨BinaryOp.equalityLaws ctx host, BinaryOp.orderLaws ctx host⟩

/-- A number that is written in two ways is less than another one in both, and no truth value is the
number one. -/
theorem comparisons_are_coherent_trailingZeros :
    let one : Value := .number (.finite ⟨false, 10, -1⟩)
    let same : Value := .number (.finite ⟨false, 100, -2⟩)
    let two : Value := .number (.finite ⟨false, 2, 0⟩)
    (one.isScript = true ∧ same.isScript = true ∧ two.isScript = true) ∧
      BinaryOp.less.apply .standard {} one two = BinaryOp.less.apply .standard {} same two ∧
      BinaryOp.less.apply .standard {} (.boolean true) one =
        .error (.operand (.text "<") "Number or String") := by
  intro one same two
  obtain ⟨equality, order⟩ := comparisons_are_coherent .standard {}
  have equal : BinaryOp.equal.apply .standard {} one same = .ok (.boolean true) := rfl
  have itself := equality.equivalence.refl ⟨two, rfl⟩
  have noOrder : ¬ Value.HaveOrder (.boolean true) one := by
    simp [Value.HaveOrder, Value.typeName, one]
  exact ⟨⟨rfl, rfl, rfl⟩, (order.congr one same two two rfl rfl rfl rfl equal itself).1,
    (order.refused (.boolean true) one rfl rfl noOrder).1⟩

end ScopeScript
