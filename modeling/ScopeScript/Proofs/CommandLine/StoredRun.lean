import ScopeScript.Proofs.CommandLine.Place
import ScopeScript.Proofs.CommandLine.Reading
import ScopeScript.Proofs.Tree.StoredScript
set_option autoImplicit false

/-!
# CommandLine: a stored tree runs like its source

A script that parses can be stored beside itself and run from there.  What comes of running the
stored tree is what comes of running the script: what is printed, errors and their messages, the
exit status and the log, however verbose.

Both commands run one and the same tree, since a script's tree is read back from its stored text as
it was.  They end alike because storing changes nothing else in the folder; in particular the log
can be written before if and only if it can be written afterwards.
-/

namespace ScopeScript

/-! ## Reading a stored tree -/

theorem joinLineBreaks_eq_self {text : List Char} (h : '\r' ∉ text) :
    joinLineBreaks text = text := by
  fun_induction joinLineBreaks text with
  | case1 => rfl
  | case2 rest ih => simp at h
  | case3 rest _ ih => simp at h
  | case4 c rest _ _ ih =>
    rw [ih fun mem => h (List.mem_cons_of_mem _ mem)]

theorem normalizeLines_eq_self {text : String} (h : '\r' ∉ text.toList) :
    normalizeLines text = text := by
  rw [normalizeLines, joinLineBreaks_eq_self h, String.ofList_toList]

/-- A tree is loaded from the text of its document. -/
theorem loadTree_written {document : Json} (numberless : document.Numberless) {tree : Node}
    (h : Node.load document = .ok tree) :
    Command.loadTree (normalizeLines (document.writeIndented 0)) = .ok tree := by
  rw [normalizeLines_eq_self (numberless.legible document 0).unbroken, Command.loadTree,
    Json.read_writeIndented numberless]
  exact h

/-! ## Commands in a folder -/

namespace Folder

/-- What a command comes to in a folder: nothing if one of its files cannot be written. -/
def carryOut (folder : Folder) (outcome : Outcome) : Outcome :=
  if outcome.files.any fun file => folder.find file.1 = .directory then
    { status := .error .directory }
  else outcome

/-- The folder after a command. -/
def after (folder : Folder) (outcome : Outcome) : Folder :=
  outcome.files.foldl (fun folder file => folder.write file.1 file.2) folder

variable {folder : Folder}

theorem perform_of_read {words : List String} {command : Command}
    (h : Command.read words = .ok (.command command)) :
    folder.perform words =
      folder.carryOut (command.perform (folder.find (Path.ofString command.file))) := by
  rw [perform, h]
  rfl

theorem carryOut_congr {other : Folder} {outcome : Outcome}
    (same : ∀ file ∈ outcome.files, other.find file.1 = folder.find file.1) :
    other.carryOut outcome = folder.carryOut outcome := by
  have blocked : (outcome.files.any fun file => other.find file.1 = .directory) =
      outcome.files.any fun file => folder.find file.1 = .directory := by
    rw [Bool.eq_iff_iff]
    simp only [List.any_eq_true, decide_eq_true_eq]
    exact exists_congr fun file => and_congr_right fun mem => by rw [same file mem]
  rw [carryOut, carryOut, blocked]

theorem carryOut_eq_self {outcome : Outcome}
    (free : ∀ file ∈ outcome.files, folder.find file.1 ≠ .directory) :
    folder.carryOut outcome = outcome := by
  refine if_neg ?_
  simpa using free

/-- No stored tree is named like the log. -/
theorem logName_ne (front : List String) (last : String) :
    Command.logFile.names ≠ front ++ [last ++ Command.treeEnding] := by
  intro same
  have name : "debug.txt" = last ++ ".ast.json" := by
    simpa [Command.logFile, Command.treeEnding] using congrArg List.getLast? same
  have ending : ".ast.json".toList <:+ "debug.txt".toList := by
    rw [name, String.toList_append]
    exact List.suffix_append _ _
  exact absurd ending (by decide)

/-- A stored tree is found where it was written, and the log is where it was before. -/
theorem find_write_beside {file name content : String}
    (script : folder.find (Path.ofString file) = .text content)
    (beside : Path.ofString name = (Path.ofString file).addEnding Command.treeEnding)
    (free : folder.find (Path.ofString name) ≠ .directory) (text : String) :
    (folder.write (Path.ofString name) text).find (Path.ofString name) = .text text ∧
      (folder.write (Path.ofString name) text).find Command.logFile =
        folder.find Command.logFile := by
  obtain ⟨inside, front, last, hwalk⟩ := walk_addEnding (Path.proper_ofString file) script
    (by decide : 2 < Command.treeEnding.length)
  rw [← beside] at hwalk
  have inside' : (Path.ofString name).root = "" := by
    rw [beside]
    exact inside
  have proper := Path.proper_ofString name
  have notDirectory : folder.isDirectory (front ++ [last ++ Command.treeEnding]) = false := by
    rw [find_of_walk proper inside' hwalk] at free
    simpa using fun directory => free (if_pos directory)
  have find := @find_write folder _ _ proper inside' hwalk notDirectory text
  constructor
  · rw [find proper inside', if_pos hwalk]
  · have logWalk : folder.walk [] Command.logFile.names = some Command.logFile.names := rfl
    have logProper : Command.logFile.Proper := Path.proper_ofString "debug.txt"
    rw [find logProper rfl, logWalk, if_neg]
    exact fun same => logName_ne front last (Option.some.inj same)

end Folder

namespace Command

/-- A run writes nothing but its log. -/
theorem eq_logFile_of_mem {verbosity : Nat} {tree : Node} {file : Path × String}
    (h : file ∈ (runTree verbosity tree).files) : file.1 = logFile := by
  simp only [runTree] at h
  split at h
  · cases h
  · rw [List.mem_singleton.mp h]

variable {file content : String} {verbosity : Nat} {tree : Node}

theorem perform_run (accepted : parseProgram (normalizeLines content) = .ok tree) :
    perform ⟨.run, file, verbosity⟩ (.text content) = runTree verbosity tree := by
  simp only [perform, performOn, accepted, attempt]

theorem perform_runTree (loaded : loadTree (normalizeLines content) = .ok tree) :
    perform ⟨.runTree, file, verbosity⟩ (.text content) = runTree verbosity tree := by
  simp only [perform, performOn, loaded, attempt]

theorem perform_emitTree {document : Json}
    (accepted : parseProgram (normalizeLines content) = .ok tree)
    (stored : tree.store = .ok document) :
    perform ⟨.emitTree, file, verbosity⟩ (.text content) =
      { stdout := ((Path.ofString file).addEnding treeEnding).toString ++ "\n"
        files := [((Path.ofString file).addEnding treeEnding, document.writeIndented 0)] } := by
  simp only [perform, performOn, emitTree, accepted, ok_bind, stored, attempt]

end Command

/-- The script `file` parses, and `name` names the place beside it for its stored tree.  Then the
tree can be stored there, what is printed names that place too, and running it from there comes to
exactly what running the script comes to, however often a log is asked for: that is a run of the
tree, unless the log cannot be written. -/
theorem stored_tree_runs_like_source {folder : Folder} {file name content : String} {tree : Node}
    (script : folder.find (Path.ofString file) = .text content)
    (accepted : parseProgram (normalizeLines content) = .ok tree)
    (beside : Path.ofString name = (Path.ofString file).addEnding Command.treeEnding)
    (free : folder.find (Path.ofString name) ≠ .directory)
    (isFile : IsFile file) (isFile' : IsFile name) (storeFlags runFlags : List Nat) :
    ∃ shown text,
      folder.perform (storeFlags.map verboseWord ++ ["--emit-ast", file]) =
        { stdout := shown ++ "\n", files := [(Path.ofString name, text)] } ∧
      Path.ofString shown = Path.ofString name ∧
      (folder.after (folder.perform (storeFlags.map verboseWord ++ ["--emit-ast", file]))).perform
          (runFlags.map verboseWord ++ ["--ast", name]) =
        folder.perform (runFlags.map verboseWord ++ [file]) ∧
      (folder.find Command.logFile ≠ .directory →
        folder.perform (runFlags.map verboseWord ++ [file]) =
          Command.runTree (loudness runFlags) tree) := by
  obtain ⟨document, stored, numberless, loaded⟩ := parseProgram_stored accepted
  have named : file ≠ "" := by
    rintro rfl
    cases script
  have named' : name ≠ "" := by
    rintro rfl
    have noName : (Path.ofString "").names = [] := rfl
    simp [beside, Path.addEnding] at noName
  have emitted : folder.perform (storeFlags.map verboseWord ++ ["--emit-ast", file]) =
      { stdout := (Path.ofString name).toString ++ "\n"
        files := [(Path.ofString name, document.writeIndented 0)] } := by
    have read : Command.read (storeFlags.map verboseWord ++ ["--emit-ast", file]) = _ :=
      Command.read_option storeFlags .emitTree isFile named
    rw [Folder.perform_of_read read, script, FileOption.action,
      Command.perform_emitTree accepted stored, ← beside]
    exact Folder.carryOut_eq_self (by simpa using free)
  have run : folder.perform (runFlags.map verboseWord ++ [file]) =
      folder.carryOut (Command.runTree (loudness runFlags) tree) := by
    rw [Folder.perform_of_read (Command.read_program runFlags isFile named), script,
      Command.perform_run accepted]
  obtain ⟨found, log⟩ := Folder.find_write_beside script beside free (document.writeIndented 0)
  refine ⟨(Path.ofString name).toString, document.writeIndented 0, emitted, ?_, ?_, ?_⟩
  · refine Path.ofString_toString ?_ (Path.proper_ofString name)
    rw [beside]
    exact (Folder.walk_of_text (Path.proper_ofString file) script).1
  · have read : Command.read (runFlags.map verboseWord ++ ["--ast", name]) = _ :=
      Command.read_option runFlags .runTree isFile' named'
    rw [emitted, run, Folder.after, List.foldl_cons, List.foldl_nil, Folder.perform_of_read read,
      found, FileOption.action, Command.perform_runTree (loadTree_written numberless loaded)]
    refine Folder.carryOut_congr fun file mem => ?_
    rw [Command.eq_logFile_of_mem mem, log]
  · intro free
    rw [run]
    refine Folder.carryOut_eq_self fun file mem => ?_
    rwa [Command.eq_logFile_of_mem mem]

/-- A script with a string over two lines and a numeral with a trailing zero. -/
def priceScript : String := "const note = \"net\r\nprice\"\r\nreturn 2.50 * .4\r\n"

/-- The tree of that script. -/
def priceTree : Node :=
  .block [
    .declaration true (.text "note") (.literal (.text "net\nprice")),
    .giveBack (.binary .multiply (.literal (.number (.finite ⟨false, 250, -2⟩)))
      (.literal (.number (.finite ⟨false, 4, -1⟩))))]

/-- That script in a directory. -/
def shopFolder : Folder := [("shop/price.txt", .text priceScript)]

theorem stored_tree_runs_like_source_shopFolder :
    shopFolder.find (Path.ofString "shop/price.txt") = .text priceScript ∧
    parseProgram (normalizeLines priceScript) = .ok priceTree ∧
    ∃ shown text,
      shopFolder.perform ["--emit-ast", "shop/price.txt"] =
        { stdout := shown ++ "\n", files := [(Path.ofString "shop/./price.txt.ast.json", text)] } ∧
      Path.ofString shown = Path.ofString "shop/./price.txt.ast.json" ∧
      (shopFolder.after (shopFolder.perform ["--emit-ast", "shop/price.txt"])).perform
          ["-v", "-vv", "--ast", "shop/./price.txt.ast.json"] =
        shopFolder.perform ["-v", "-vv", "shop/price.txt"] ∧
      shopFolder.perform ["-v", "-vv", "shop/price.txt"] = Command.runTree 3 priceTree := by
  have script : shopFolder.find (Path.ofString "shop/price.txt") = .text priceScript := rfl
  have accepted : parseProgram (normalizeLines priceScript) = .ok priceTree := rfl
  have beside : Path.ofString "shop/./price.txt.ast.json" =
      (Path.ofString "shop/price.txt").addEnding Command.treeEnding := rfl
  have free : shopFolder.find (Path.ofString "shop/./price.txt.ast.json") ≠ .directory := by decide
  obtain ⟨shown, text, emitted, printed, same, runs⟩ :=
    stored_tree_runs_like_source script accepted beside free rfl rfl [] [0, 1]
  exact ⟨script, accepted, shown, text, emitted, printed, same, runs (by decide)⟩

end ScopeScript
