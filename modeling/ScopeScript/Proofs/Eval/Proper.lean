import ScopeScript.Proofs.Eval.Failures
import ScopeScript.Proofs.Eval.HostWrites
import ScopeScript.Proofs.Eval.ScriptValues
import ScopeScript.Proofs.Host.References
set_option autoImplicit false

/-!
# Eval: proper runs

A run is proper if it is one of well-formed trees, with values that scripts compute with, and on a
host that is apart from the interpreter.  It stays so: whatever it comes to do is about well-formed
trees, and property paths lead to nothing that is the interpreter's own.

On the way it may ask two things that hosts do not answer.  A handle is written to a property, and
the class that annotates it cannot be asked whether the target is one of its objects; or an integer
is read that is out of range, and has too many digits to be shown in the error that says so.
-/

namespace ScopeScript

/-! ## Errors -/

/-- Whether an error is a defect, or that of an integer that is too long to be shown. -/
def Error.isStray : Error → Bool
  | .wrongValue => true
  | error => error.isDefect

theorem Error.isStray_of_isScript {error : Error} (h : error.isScript = true) :
    error.isStray = false := by
  cases error <;> first | rfl | cases h

theorem UnaryOp.apply_error {handles : Value → Prop} {ctx : Context} {op : UnaryOp}
    (known : op ∈ UnaryOp.all) {operand : Value} (allowed : operand.Allowed handles) {error : Error}
    (h : op.apply ctx operand = .error error) : error.isStray = false := by
  unfold UnaryOp.apply at h
  split at h
  · obtain ⟨truth, htruth⟩ := allowed.isTruthy
    rw [htruth] at h
    cases h
  · cases h
  · split at h
    · cases h
    · cases h
      rfl
  · simp [UnaryOp.all] at known
  · cases h
    rfl

/-- Reading fails in this way only for an integer that is too long to be shown. -/
theorem Value.ofHost_eq_wrongValue_iff {value : Value} :
    value.ofHost = .error .wrongValue ↔
      ∃ n, value = .integer n ∧ mostShownDigits < digitCount n.natAbs := by
  constructor
  · intro h
    rcases ofHost_error_cases h with ⟨source, other⟩ | ⟨-, long⟩
    · cases other
    · exact long
  · rintro ⟨n, rfl, long⟩
    have beyond : ¬(leastInteger ≤ n ∧ n ≤ greatestInteger) := by
      rintro ⟨low, high⟩
      have short : digitCount n.natAbs ≤ 20 := by
        refine (digitCount_le_iff (by decide)).mpr ?_
        unfold leastInteger at low
        unfold greatestInteger at high
        have power : Nat.pow 10 20 = 100000000000000000000 := rfl
        omega
      unfold mostShownDigits at long
      omega
    rw [ofHost, if_neg beyond, if_pos long]

/-! ## Values -/

/-- A host value that is no part of the interpreter, and no broken reference. -/
structure Value.Outside (objects : HostObjects) (value : Value) : Prop where
  host : value.isHost false = true
  refers : value.Refers objects

/-- What the objects and classes of a host hold is no part of the interpreter, and no broken
reference.  A function that a host held would have attributes for scripts to write to, its code
among them. -/
structure Host.Apart (host : Host) : Prop where
  objects : host.objects.Hold (Value.Outside host.objects)
  classes : ∀ cls ∈ host.classes, cls.Holds (Value.Outside host.objects)

/-- A value that scripts compute with; the target of a handle is outside. -/
def Value.Sound (objects : HostObjects) (value : Value) : Prop :=
  value.Allowed fun value => value.Exports (Value.Outside objects)

namespace Value

variable {objects : HostObjects} {value : Value}

theorem outside_of_isCommon (common : value.isCommon = true) : value.Outside objects := by
  refine ⟨isHost_of_isCommon false common, ?_⟩
  cases value with
  | object id cls => cases common
  | _ => trivial

theorem Outside.alike {classes : HostClasses} {objects' : HostObjects}
    (outside : value.Outside objects) (alike : objects.Alike classes objects') :
    value.Outside objects' :=
  ⟨outside.host, outside.refers.alike alike⟩

theorem Sound.exports (sound : value.Sound objects) : value.Exports (Value.Outside objects) := by
  cases value with
  | handle target copy => exact sound.handle target copy rfl
  | object id cls => exact absurd sound.script (by simp [isScript])
  | boolean | number | text | integer => exact outside_of_isCommon rfl
  | function | sentinel => trivial
  | _ => exact absurd sound.script (by simp [isScript])

theorem Sound.outside {target : Value} {copy : Copy} (sound : (handle target copy).Sound objects) :
    target.Outside objects :=
  sound.exports

end Value

/-! ## Runs -/

namespace Conduct

/-- A run of well-formed trees, with script values and a host that stays apart. -/
def proper (settings : Settings) (start : HostObjects) : Conduct where
  settings := settings
  level := settings.logLevel
  strict := True
  literal value := value.isPlain = true
  value := Value.Sound start
  objects objects := start.Alike settings.classes objects ∧ objects.Hold (Value.Outside start)
  logs _ _ := True
  error _ := True

variable {settings : Settings} {start : HostObjects}

/-- The host is apart at any moment. -/
theorem host_apart (apart : (Host.mk settings.classes start).Apart) {objects : HostObjects}
    (kept : (proper settings start).objects objects) :
    (Host.mk settings.classes objects).Apart where
  objects := kept.2.mono fun _ outside => outside.alike kept.1
  classes cls hcls := (apart.classes cls hcls).mono fun _ outside => outside.alike kept.1

theorem lawful_proper (builtIn : settings.BuiltIn) : (proper settings start).Lawful where
  script _ _ := trivial
  odd _ _ _ := trivial
  literal _ plain _ := Value.allowed_of_isPlain plain
  plain _ plain := Value.allowed_of_isPlain plain
  function _ _ := ⟨rfl, by simp⟩
  unary op value known usable := by
    refine yields_of (fun result h _ => ?_) fun _ _ => trivial
    exact (op.gives_apply settings.context usable.fine).allowed h
  binary objects op a b known _ usableA usableB := by
    refine yields_of (fun result h _ => ?_) fun _ _ => trivial
    exact (op.gives_apply settings.context _ usableA.fine usableB.fine).allowed h
  follow _ _ _ _ _ _ _ _ _ _ := trivial
  write objects owner path target copy property rest value kept handle usable := by
    split
    · rename_i objects' h
      obtain ⟨_, _, _, _, _, stored, -, -, hstored, written, -⟩ :=
        Settings.writePath_eq_ok builtIn h
      refine ⟨kept.1.trans written.alike, written.hold kept.2 ?_⟩
      exact Value.Exports.coerce (fun _ => Value.outside_of_isCommon) usable.fine.exports
        usable.noSentinel hstored
    · trivial
  logged _ _ _ _ := trivial
  level lax := absurd trivial lax

theorem state_proper (settings : Settings) {m : Machine}
    (bound : ∀ value, m.Binds value → value.isScript = true)
    (handles : ∀ target copy, m.Binds (.handle target copy) → target.Outside m.objects)
    (codes : m.WellFormed) (hold : m.objects.Hold (Value.Outside m.objects)) :
    (proper settings m.objects).State m m.log := by
  refine ⟨⟨fun id entry hentry => ?_, fun id entry hentry => ?_⟩, ⟨.refl _, hold⟩, trivial⟩
  · have binds : m.Binds entry.2.value := ⟨id, entry, hentry, rfl⟩
    refine ⟨bound _ binds, ?_⟩
    intro target copy same
    rw [same] at binds ⊢
    exact handles target copy binds
  · have wellFormed := codes id entry hentry
    refine ⟨fun _ => wellFormed, (Node.isPlain_iff _).mp (Node.isPlain_of_blockOk ?_)⟩
    rw [Code.isWellFormed, Bool.and_eq_true] at wellFormed
    exact wellFormed.2

end Conduct

/-- Whether what a task is about is well-formed: nodes are of a kind that can stand there, and have
operators of the language only. -/
def Task.isWellFormed : Task → Bool
  | .evaluate _ _ node => node.exprOk
  | .arguments _ _ _ _ nodes => Node.exprsOk nodes
  | .call _ _ _ code _ => code.isWellFormed
  | .execute _ _ node => node.statementOk || node.blockOk
  | .branch _ _ node => node.elseOk
  | .body _ _ node => node.blockOk
  | .all _ _ nodes => Node.statementsOk nodes
  | .write _ _ _ _ _ | .setProperty _ _ _ _ => true

theorem Conduct.Fine.isWellFormed {C : Conduct} {task : Task} (fine : C.Fine task)
    (strict : C.strict) : task.isWellFormed = true := by
  cases task with
  | call depth home name code arguments => exact fine.1.wellFormed strict
  | write | setProperty => rfl
  | _ => exact fine.wellFormed strict

/-- Property paths that start at a handle lead to nothing that is the interpreter's own.  The only
failures along them are that a property is missing, that the last one does not take a value, and
that its class would have to be asked about a value and cannot be. -/
structure Settings.ReportsFailures (settings : Settings) (m : Machine) : Prop where
  leads : ∀ {scope : ScopeId} {name : Name} {target : Value} {copy : Copy},
    m.scopes.lookup scope name = .ok (.handle target copy) →
    ∀ {owner : Name} {names : List String} {value : Value},
      settings.follow m.objects owner target (names.map .text) = .ok value →
      value.isHost false = true
  read : ∀ {scope : ScopeId} {name : Name} {target : Value} {copy : Copy},
    m.scopes.lookup scope name = .ok (.handle target copy) →
    ∀ {owner : Name} {names : List String} {error : Error},
      settings.follow m.objects owner target (names.map .text) = .error error →
      ∃ missing ∈ names, error = .noProperty owner (.text missing)
  write : ∀ {scope : ScopeId} {name : Name} {target : Value} {copy : Copy},
    m.scopes.lookup scope name = .ok (.handle target copy) →
    ∀ {owner path : String} {value : Value} {property : String} {rest : List String}
        {error : Error}, value.isScript = true →
      settings.writePath m.objects owner path value target property rest = .error error →
      (∃ missing ∈ property :: rest, error = .noProperty (.text owner) (.text missing)) ∨
        error = .propertyType path value.typeName ∨
        error = .wrongShape ∧ ∃ reached last,
          settings.writePoint m.objects owner target property rest = .ok (reached, last) ∧
          (settings.registry.adapterFor settings.classes reached).AsksUnchecked settings.classes
            m.objects reached last value

section Hosts

variable {settings : Settings} (served : settings.Served) {start : HostObjects}
  (apart : (Host.mk settings.classes start).Apart)

theorem Host.Apart.sound {host : Host} (apart : host.Apart) : host.Sound where
  objects := apart.objects.mono fun _ outside => outside.refers
  classes cls hcls := (apart.classes cls hcls).mono fun _ outside => outside.refers

include served apart

theorem Settings.Served.reportsFailures {m : Machine} {log : Array LogEntry}
    (state : (Conduct.proper settings start).State m log) : settings.ReportsFailures m := by
  have now := Conduct.host_apart apart state.objects
  have target : ∀ {scope : ScopeId} {name : Name} {target : Value} {copy : Copy},
      m.scopes.lookup scope name = .ok (.handle target copy) → target.Outside m.objects :=
    fun found => (state.scopes.lookup found).outside.alike state.objects.1
  constructor
  · intro scope name _ copy found owner names value leads
    exact (settings.held_of_follow now.objects now.classes (target found) leads).host
  · intro scope name _ copy found owner names error
    exact served.follow_error now.sound.objects now.sound.classes (target found).refers
  · intro scope name _ copy found owner path value property rest error script
    exact served.writePath_error now.sound.objects now.sound.classes (target found).refers script

end Hosts

/-! ## Questions without an answer -/

/-- A task asks something that the host does not answer, with the error that comes of it: a class is
asked for its objects that cannot be, or an integer is read that is too long to be shown. -/
inductive Task.AsksInVain (settings : Settings) (m : Machine) : Task → Error → Prop
  | unchecked {adapter : Adapter} {target value : Value} {property : String}
    (asks : adapter.AsksUnchecked settings.classes m.objects target property value) :
    AsksInVain settings m (.setProperty adapter target property value) .wrongShape
  | tooLong {depth : Nat} {scope : ScopeId} {word : String} {words : List String} {target : Value}
    {copy : Copy} {n : Int} (some_ : words ≠ [])
    (bound : m.scopes.lookup scope (.text word) = .ok (.handle target copy))
    (leads : settings.follow m.objects (.text word) target (words.map .text) = .ok (.integer n))
    (long : mostShownDigits < digitCount n.natAbs) :
    AsksInVain settings m (.evaluate depth scope (.identifier (.text word) (.ofWords words)))
      .wrongValue

namespace Task

open Eval

theorem AsksInVain.fails {settings : Settings} {m : Machine} {task : Task} {error : Error}
    (asks : task.AsksInVain settings m error) : task.failure? settings m = some error := by
  cases asks with
  | unchecked asks => simp only [failure?, asks.write_eq]
  | tooLong some_ bound leads long =>
    obtain ⟨log, evaluated⟩ := evaluate_path settings (callAt settings _) some_ bound
    rw [leads, ok_bind, Value.ofHost_eq_wrongValue_iff.mpr ⟨_, rfl, long⟩] at evaluated
    exact Eval.failure?_eq_some_iff.mpr ⟨_, evaluated⟩

end Task

end ScopeScript
