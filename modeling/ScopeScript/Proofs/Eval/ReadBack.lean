import ScopeScript.Proofs.Eval.Annotations
import ScopeScript.Proofs.Eval.Moments
import ScopeScript.Proofs.Number.Order
set_option autoImplicit false

/-!
# Eval: what is written can be read

A script that writes a truth value, a number or a text to a property reads an equal value of the
same type from it.  There is one exception.  A property that is annotated as an integer takes every
number that is one, but scripts read integers of at most 64 bits: what lies beyond is stored and
cannot be read.
-/

namespace ScopeScript

/-! ## Conversion -/

namespace Value

variable {classes : HostClasses} {value stored : Value} {slot : Option SlotType}

theorem equal_self_of_isPlain (plain : value.isPlain = true) (host : Host) :
    value.equal host value = .ok true := by
  cases value with
  | boolean b => simp [Value.equal]
  | text s => simp [Value.equal]
  | number n =>
    have allowed : Value.Allowed (fun _ => True) (.number n) := allowed_of_isPlain plain
    obtain ⟨d, rfl⟩ := allowed.finite
    rw [Value.equal, Number.equalOrInvalid_finite, decide_eq_true rfl]
  | _ => cases plain

theorem ofHost_of_isPlain (plain : value.isPlain = true) : value.ofHost = .ok value := by
  cases value with
  | boolean b => rfl
  | text s => rfl
  | number n => exact if_pos plain
  | _ => cases plain

/-- A number that is an integer of more than 64 bits, which scripts do not read. -/
def Exceeds (value : Value) (n : ℤ) : Prop :=
  ¬(leastInteger ≤ n ∧ n ≤ greatestInteger) ∧
    ∃ d : Decimal, value = .number (.finite d) ∧ d.value = n

theorem Exceeds.unique {k n : ℤ} (hk : value.Exceeds k) (hn : value.Exceeds n) : k = n := by
  obtain ⟨-, d, rfl, hd⟩ := hk
  obtain ⟨-, d', same, hd'⟩ := hn
  cases same
  exact_mod_cast hd.symm.trans hd'

theorem Exceeds.ofHost_integer {n : ℤ} (exceeds : value.Exceeds n) :
    ∃ error, (Value.integer n).ofHost = .error error ∧
      (digitCount n.natAbs ≤ mostShownDigits →
        error = .conversion ("int (out of 64-bit range: " ++ toString n ++ ")")) := by
  rw [Value.ofHost, if_neg exceeds.1]
  by_cases long : mostShownDigits < digitCount n.natAbs
  · exact ⟨_, if_pos long, fun short => absurd long short.not_gt⟩
  · exact ⟨_, if_neg long, fun _ => rfl⟩

/-- What is read of what was stored: an equal value, or an integer that is too large. -/
theorem read_of_coerce (plain : value.isPlain = true)
    (h : value.coerce classes slot = .ok (some stored)) (host : Host) :
    (∃ n, slot = some .integer ∧ value.Exceeds n ∧ stored = .integer n) ∨
    (∀ n, slot = some .integer → ¬value.Exceeds n) ∧
      ∃ result, stored.ofHost = .ok result ∧ result.typeName = value.typeName ∧
        value.equal host result = .ok true := by
  cases storedAs_of_coerce h with
  | @integer d n asked same =>
    by_cases fits : leastInteger ≤ n ∧ n ≤ greatestInteger
    · refine .inr ⟨?_, .number (.finite (.ofInt n)), if_pos fits, rfl, ?_⟩
      · rintro other - ⟨beyond, d', number, same'⟩
        cases number
        have : n = other := by exact_mod_cast same.symm.trans same'
        exact beyond (this ▸ fits)
      · have equal : d.value = (Decimal.ofInt n).value := by rw [same, Decimal.value_ofInt]
        rw [Value.equal, Number.equalOrInvalid_finite, decide_eq_true equal]
    · exact .inl ⟨n, asked, ⟨fits, d, rfl, same⟩, rfl⟩
  | whole other =>
    have kept : value.toHost = value := by
      cases value with
      | handle => cases plain
      | _ => rfl
    rw [kept]
    exact .inr ⟨fun _ asked => absurd asked other, value, ofHost_of_isPlain plain, rfl,
      equal_self_of_isPlain plain host⟩

end Value

/-! ## Evaluation -/

namespace Eval

variable {settings : Settings} {call : Caller} {scope : ScopeId} {name property : String}
  {target : Value} {copy : Copy} {m m₁ m' : Machine}

/-- What a property holds after it was written. -/
theorem readProperty_of_execute {e : Node} {value : Value}
    (builtIn : settings.registry.adapterFor settings.classes target ≠ .textOnly)
    (evaluated : evaluateValue settings call scope
      ("value assigned to '" ++ Node.path name [property] ++ "'") e m = .ok value m₁)
    (bound : m₁.scopes.lookup scope (.text name) = .ok (.handle target copy))
    (done : execute settings call scope
      (.assignment (.identifier (.text name) (.ofWords [property])) e) m = .ok .normal m') :
    m'.scopes = m₁.scopes ∧ ∃ stored,
      value.coerce settings.classes
        ((settings.registry.adapterFor settings.classes target).slotType? settings.classes
          m₁.objects target property) = .ok (some stored) ∧
      settings.readProperty m'.objects (.text name) target (.text property) = .ok stored := by
  rw [execute_assignment (Node.route?_words name [property]), executeRoute,
    bind_of_ok evaluated] at done
  obtain ⟨⟨⟩, m₂, written, done⟩ := bind_eq_ok.mp done
  obtain ⟨log, hlog⟩ := emit_apply settings (.assigned (Node.path name [property]) value) m₂
  change (emit settings _ >>= fun _ => pure Completion.normal) m₂ = _ at done
  rw [bind_of_ok hlog] at done
  cases done
  rcases assignPath_eq settings scope name property [] value m₁ with
    ⟨target', copy', m₃, bound', ends, path, scopes, -⟩ | ⟨error, fails⟩
  · rw [bound] at bound'
    cases bound'
    rw [written] at ends
    cases ends
    obtain ⟨id, cls, stored, rfl, coerced, -, read⟩ :=
      Adapter.write_stored builtIn (Settings.writeProperty_eq_ok path)
    refine ⟨scopes, stored, coerced, ?_⟩
    rw [Settings.readProperty_text, read]
    rfl
  · rw [written] at fails
    cases fails

end Eval

/-- A truth value, a number or a text that a script wrote to a property of a host object, by the
adapter for attributes or the one for dictionaries, is read from there as an equal value of the same
type, whatever the annotation; except that an integer of more than 64 bits that was written where
an integer is asked for is not read.  That fails with a conversion error, which shows the integer
if it is not too long to be shown. -/
theorem written_properties_read_back (settings : Settings) (call : Caller) (scope : ScopeId)
    (name property : String) (e : Node) (value target : Value) (copy : Copy) (m m₁ m' : Machine)
    (builtIn : settings.registry.adapterFor settings.classes target ≠ .textOnly)
    (evaluated : Eval.evaluateValue settings call scope
      ("value assigned to '" ++ Node.path name [property] ++ "'") e m = .ok value m₁)
    (plain : value.isPlain = true)
    (bound : m₁.scopes.lookup scope (.text name) = .ok (.handle target copy))
    (done : Eval.execute settings call scope
      (.assignment (.identifier (.text name) (.ofWords [property])) e) m = .ok .normal m') :
    let slot := (settings.registry.adapterFor settings.classes target).slotType? settings.classes
      m₁.objects target property
    let read := Eval.evaluate settings call scope
      (.identifier (.text name) (.ofWords [property])) m'
    ((∀ n, slot = some .integer → ¬value.Exceeds n) →
      ∃ result m'', read = .ok result m'' ∧ result.typeName = value.typeName ∧
        value.equal (settings.host m'') result = .ok true) ∧
    ∀ n, slot = some .integer → value.Exceeds n →
      ∃ error m'', read = .error error m'' ∧
        (digitCount n.natAbs ≤ mostShownDigits →
          error = .conversion ("int (out of 64-bit range: " ++ toString n ++ ")")) := by
  intro slot read
  obtain ⟨scopes, stored, coerced, held⟩ :=
    Eval.readProperty_of_execute builtIn evaluated bound done
  rw [← scopes] at bound
  have follows : settings.follow m'.objects (.text name) target [.text property] = .ok stored := by
    rw [Settings.follow, held]
    rfl
  obtain ⟨log, hread⟩ := Eval.evaluate_path settings call (List.cons_ne_nil property []) bound
  rw [List.map_singleton, follows, ok_bind] at hread
  have outcome := Value.read_of_coerce plain coerced (settings.host m')
  refine ⟨fun within => ?_, fun n asked exceeds => ?_⟩
  · rcases outcome with ⟨n, asked, exceeds, -⟩ | ⟨-, result, converted, sameType, equal⟩
    · exact absurd exceeds (within n asked)
    · rw [converted] at hread
      exact ⟨result, _, hread, sameType, equal⟩
  · rcases outcome with ⟨k, -, exceeds', rfl⟩ | ⟨within, -⟩
    · cases exceeds'.unique exceeds
      obtain ⟨error, refused, shown⟩ := exceeds.ofHost_integer
      rw [refused] at hread
      exact ⟨error, _, hread, shown⟩
    · exact absurd exceeds (within n asked)

/-- Gives a window a number for its width. -/
def setWidth (d : Decimal) : Node :=
  .assignment (.identifier (.text "window") (.ofWords ["width"])) (.literal (.number (.finite d)))

theorem written_properties_read_back_setWidth :
    ∃ m', Eval.execute windowSettings (Eval.callAt windowSettings 0) 0 (setWidth ⟨false, 40, -1⟩)
        windowMachine = .ok .normal m' ∧
      ∃ result m'', Eval.evaluate windowSettings (Eval.callAt windowSettings 0) 0
          (.identifier (.text "window") (.ofWords ["width"])) m' = .ok result m'' ∧
        result.typeName = "Number" ∧
        Value.equal (windowSettings.host m'') (.number (.finite ⟨false, 40, -1⟩)) result =
          .ok true := by
  have done : ∃ m', Eval.execute windowSettings (Eval.callAt windowSettings 0) 0
      (setWidth ⟨false, 40, -1⟩) windowMachine = .ok .normal m' := ⟨_, rfl⟩
  obtain ⟨m', done⟩ := done
  refine ⟨m', done, ?_⟩
  refine (written_properties_read_back windowSettings (Eval.callAt windowSettings 0) 0 "window"
    "width" _ (.number (.finite ⟨false, 40, -1⟩)) (.object 0 (.user "Window")) 0 windowMachine
    windowMachine m' (by decide) rfl rfl rfl done).1 ?_
  rintro n - ⟨beyond, d, same, value⟩
  cases same
  have four : (Decimal.value ⟨false, 40, -1⟩) = 4 := by
    rw [Decimal.value_eq_units]
    norm_num [Decimal.units]
  obtain rfl : n = 4 := by exact_mod_cast value.symm.trans four
  exact beyond (by decide)

/-- A width of 65 bits is written, but not read. -/
theorem width_beyond_64_bits_is_not_read :
    ∃ m' m'', Eval.execute windowSettings (Eval.callAt windowSettings 0) 0
        (setWidth ⟨false, 18446744073709551616, 0⟩) windowMachine = .ok .normal m' ∧
      Eval.evaluate windowSettings (Eval.callAt windowSettings 0) 0
          (.identifier (.text "window") (.ofWords ["width"])) m' =
        .error (.conversion "int (out of 64-bit range: 18446744073709551616)") m'' :=
  ⟨_, _, rfl, rfl⟩

end ScopeScript
