import ScopeScript.Proofs.Eval.ConductRun
set_option autoImplicit false

/-!
# Eval: levels of detail

How much a run logs makes no difference to anything but the log, and the logs of one run at several
levels of detail nest: each is the most detailed one without the events that it does not show.  The
reason is that events are logged from what has happened anyway, and that a well-formed tree never
lacks the words for one.
-/

namespace ScopeScript

/-- The entries of a log that are shown at a level of detail. -/
def LogEntry.shown (level : Nat) (entries : List LogEntry) : List LogEntry :=
  entries.filter fun entry => entry.event.level ≤ level

/-- From the state `m`, the computation ends with a result or an error, in the state `m'`. -/
def Eval.Ends {α : Type} (x : Eval α) (m : Machine) (result : Except Error α) (m' : Machine) :
    Prop :=
  match result with
  | .ok a => x m = .ok a m'
  | .error error => x m = .error error m'

/-! ## Logs -/

theorem Event.level_le (event : Event) : event.level ≤ Event.propertyLevel := by
  cases event <;> simp [level, declarationLevel, propertyLevel]

namespace LogEntry

/-- Nothing is missing at the highest level. -/
theorem shown_of_le {level : Nat} (h : Event.propertyLevel ≤ level) (entries : List LogEntry) :
    shown level entries = entries := by
  refine List.filter_eq_self.mpr fun entry _ => ?_
  exact decide_eq_true (Nat.le_trans entry.event.level_le h)

/-- An entry that joins a log at some level is shown at that level. -/
theorem joins_shown (entry : LogEntry) (level : Nat) (start : Array LogEntry)
    (entries : List LogEntry) :
    entry.joins level (start ++ (shown level entries).toArray) =
      start ++ (shown level (entries ++ [entry])).toArray := by
  unfold joins shown
  split
  · rename_i less
    simp [less]
  · rename_i more
    simp [more]

end LogEntry

/-! ## Two levels side by side -/

namespace Conduct

/-- A run with all detail beside one at another level: the logs are those of the same entries. -/
def detail (settings : Settings) (start : Array LogEntry) (level : Nat) : Conduct where
  settings := { settings with logLevel := Event.propertyLevel }
  level := level
  strict := True
  literal _ := True
  value _ := True
  objects _ := True
  logs log log' := ∃ entries : List LogEntry,
    log = start ++ (LogEntry.shown Event.propertyLevel entries).toArray ∧
      log' = start ++ (LogEntry.shown level entries).toArray
  error _ := True

variable {settings : Settings} {start : Array LogEntry} {level : Nat}

theorem lawful_detail : (detail settings start level).Lawful where
  script _ _ := trivial
  odd lax := absurd trivial lax
  literal _ _ _ := trivial
  plain _ _ := trivial
  function _ _ := trivial
  unary _ _ _ _ := yields_of (fun _ _ _ => trivial) fun _ _ => trivial
  binary _ _ _ _ _ _ _ _ := yields_of (fun _ _ _ => trivial) fun _ _ => trivial
  follow _ _ _ _ _ _ _ _ _ _ := trivial
  write objects owner path target copy property rest value _ _ _ := by
    split <;> trivial
  logged := by
    rintro _ _ entry ⟨entries, rfl, rfl⟩
    exact ⟨entries ++ [entry], entry.joins_shown _ start entries, entry.joins_shown _ start entries⟩
  level lax := absurd trivial lax

theorem state_detail {m : Machine} (scripted : m.WellFormed) :
    (detail settings m.log level).State m m.log := by
  refine ⟨⟨fun _ _ _ => trivial, ?_⟩, trivial, [], ?_, ?_⟩
  · intro id entry hentry
    exact ⟨fun _ => scripted id entry hentry, fun _ _ => trivial⟩
  · simp [LogEntry.shown]
  · simp [LogEntry.shown]

end Conduct

/-! ## All levels -/

namespace Eval

theorem exists_ends {α : Type} (x : Eval α) (m : Machine) : ∃ result m', x.Ends m result m' := by
  cases h : x m with
  | ok a m' => exact ⟨.ok a, m', h⟩
  | error error m' => exact ⟨.error error, m', h⟩

/-- What a run at any level does is known from the run that shows everything. -/
theorem run_at_level {settings : Settings} {scope : ScopeId} {tree : Node}
    (wellFormed : tree.blockOk = true) {start : Machine} (scripted : start.WellFormed)
    {result : Except Error (Option Value)} {after : Machine}
    (h : (run { settings with logLevel := Event.propertyLevel } scope tree).Ends start result after)
    (level : Nat) :
    ∃ entries : List LogEntry, after.log = start.log ++ entries.toArray ∧
      (run { settings with logLevel := level } scope tree).Ends start result
        { after with log := start.log ++ (LogEntry.shown level entries).toArray } := by
  have fits : (Conduct.detail settings start.log level).Statement tree :=
    ⟨fun _ => by simp [wellFormed], fun _ _ => trivial⟩
  have runs := Conduct.abreast_run Conduct.lawful_detail fits scope (Conduct.state_detail scripted)
  cases result with
  | ok result =>
    obtain ⟨log, h', ⟨-, -, entries, hlog, rfl⟩, -⟩ := Ensures.ok runs h
    rw [LogEntry.shown_of_le (Nat.le_refl _)] at hlog
    exact ⟨entries, hlog, h'⟩
  | error error =>
    obtain ⟨log, h', ⟨-, -, entries, hlog, rfl⟩, -⟩ := Ensures.error runs h
    rw [LogEntry.shown_of_le (Nat.le_refl _)] at hlog
    exact ⟨entries, hlog, h'⟩

end Eval

/-- A script has one outcome at all levels of detail, the log apart; and there is one sequence of
events, of which each level shows those that are of this level or below, and the third all of
them. -/
theorem log_levels_nest (settings : Settings) (scope : ScopeId) {source : String} {tree : Node}
    (parsed : parseProgram source = .ok tree) {start : Machine} (scripted : start.WellFormed) :
    (∃ (result : Except Error (Option Value)) (after : Machine) (entries : List LogEntry),
      ∀ level,
        (Eval.run { settings with logLevel := level } scope tree).Ends start result
          { after with log := start.log ++ (LogEntry.shown level entries).toArray } ∧
        (3 ≤ level → LogEntry.shown level entries = entries)) ∧
    (∀ event : Event, event.level =
      match event with
      | .called _ _ => 1
      | .declared _ _ _ | .assigned _ _ | .defined _ _ => 2
      | .propertyRead _ | .propertyWritten _ | .decided _ => 3) ∧
    ∀ code ∈ tree.codes, code.isWellFormed = true := by
  refine ⟨?_, fun event => by cases event <;> rfl, parseProgram_codes parsed⟩
  have wellFormed := parseProgram_blockOk parsed
  obtain ⟨result, after, h⟩ :=
    (Eval.run { settings with logLevel := Event.propertyLevel } scope tree).exists_ends start
  obtain ⟨entries, hentries, -⟩ := Eval.run_at_level wellFormed scripted h Event.propertyLevel
  refine ⟨result, after, entries, fun level => ⟨?_, fun all => LogEntry.shown_of_le all entries⟩⟩
  obtain ⟨others, hothers, hlevel⟩ := Eval.run_at_level wellFormed scripted h level
  have same : entries = others := by
    have appended := hentries.symm.trans hothers
    simpa using congrArg Array.toList appended
  rw [same]
  exact hlevel

/-- An interpreter with a handle on a dictionary and a function that writes to it. -/
def shelfMachine : Machine where
  scopes := ⟨#[{
    bindings :=
      [(.text "box", ⟨.text "box", .handle (.object 0 .dict) 0, false⟩),
       (.text "fill", ⟨.text "fill", .function 0 (.text "fill"), true⟩)]
    functions := [(.text "fill", ⟨.ofWords ["text"], .block [
      .assignment (.identifier (.text "box") (.ofWords ["size"]))
        (.identifier (.text "text") (.ofWords []))]⟩)] }]⟩
  objects := #[{ cls := .dict, entries := [("size", .text "small")] }]
  handles := 1

/-- A script with an event of every kind, which fails in the end. -/
def fillShelf : Node :=
  .block [
    .function (.text "rest") (.ofWords []) (.block []),
    .declaration false (.text "size") (.identifier (.text "box") (.ofWords ["size"])),
    .choice (.binary .equal (.identifier (.text "size") (.ofWords [])) (.literal (.text "small")))
      (.block [.callStatement (.call (.text "fill") [.literal (.text "large")])])
      .absent,
    .assignment (.identifier (.text "size") (.ofWords []))
      (.identifier (.text "missing") (.ofWords []))]

theorem log_levels_nest_fillShelf :
    shelfMachine.WellFormed ∧
    (Eval.run { logLevel := 3 } 0 fillShelf).failure? shelfMachine =
      some (.unbound (.text "missing")) ∧
    ((Eval.run { logLevel := 3 } 0 fillShelf).leaves shelfMachine).log.toList.map
      (·.event.level) = [2, 3, 2, 3, 1, 3, 2] ∧
    ∃ (result : Except Error (Option Value)) (after : Machine) (entries : List LogEntry),
      ∀ level,
        (Eval.run { logLevel := level } 0 fillShelf).Ends shelfMachine result
          { after with log := shelfMachine.log ++ (LogEntry.shown level entries).toArray } ∧
        (3 ≤ level → LogEntry.shown level entries = entries) := by
  have parsed : parseProgram "func rest() { } var size = box.size
      if size = \"small\" then fill(\"large\") end set size = missing" = .ok fillShelf := rfl
  have scripted : shelfMachine.WellFormed := by
    intro id entry hentry
    match id with
    | 0 =>
      rcases hentry with _ | ⟨_, none⟩
      · decide
      · cases none
    | id + 1 => cases hentry
  exact ⟨scripted, by decide +kernel, by decide +kernel, (log_levels_nest {} 0 parsed scripted).1⟩

end ScopeScript
