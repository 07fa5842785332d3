import RpcWire.Dump
import RpcWire.Proofs.Accepts.Message
import RpcWire.Proofs.CommandLine

namespace RpcWire

/-! # What the dump command tells

The command does for several files what it does for each of them alone, and
tells of each file the message or the reason why there is none. -/

/-! ## One file -/

namespace Dump

/-- The bytes that an entry gives under the settings. -/
def Gives (settings : Settings) (entry : Entry) (bytes : Bytes) : Prop :=
  ∃ content, entry = .file content ∧
    if settings.hex then HexInput.read content = .ok bytes else content = bytes

/-- The reason why no message is found. -/
def Failure.Explains (settings : Settings) (entry : Entry) : Failure → Prop
  | missing => entry = .missing
  | directory => entry = .directory
  | hex problem => settings.hex = true ∧
      ∃ content, entry = .file content ∧ HexInput.read content = .error problem
  | message fault =>
      ∃ bytes, Gives settings entry bytes ∧ Message.ofBytes settings.policy bytes = .error fault

/-- The line of a message and, where bytes are left behind it, that of their
number. -/
def report (path : Bytes) (found : Message.Found) (length : Nat) : Bytes :=
  line path found.message.text ++
    if found.consumed < length then
      line path (decimal (length - found.consumed) ++ ascii " trailing bytes after message")
    else []

/-- What is told of one file: its message on the one side, or one line with the
reason on the other. -/
structure Result.Truthful (result : Result) (settings : Settings) (path : Bytes)
    (entry : Entry) : Prop where
  shown (bytes : Bytes) (found : Message.Found) (gives : Gives settings entry bytes)
    (parses : Message.ofBytes settings.policy bytes = .ok found) :
    result = { exit := 0, out := report path found bytes.length }
  refused (nothing : ¬ ∃ bytes found, Gives settings entry bytes ∧
      Message.ofBytes settings.policy bytes = .ok found) :
    ∃ failure : Failure, failure.Explains settings entry ∧
      result = { exit := 1, err := line path (failure.text path) }

variable {settings : Settings} {path : Bytes} {entry : Entry} {bytes : Bytes}

theorem report_eq_describe {found : Message.Found}
    (parses : Message.ofBytes settings.policy bytes = .ok found) :
    report path found bytes.length = describe path found bytes.length := by
  have inside := (Message.ofBytes_eq_ok_iff.mp parses).inside
  rw [report, describe]
  by_cases used : found.consumed = bytes.length
  · rw [if_pos used, if_neg (by omega)]
  · rw [if_neg used, if_pos (by omega)]

theorem input_eq_ok_iff {content : Bytes} :
    input settings content = .ok bytes ↔
      if settings.hex then HexInput.read content = .ok bytes else content = bytes := by
  rw [input]
  split_ifs with hex
  · cases HexInput.read content <;> simp [Except.mapError]
  · rw [Except.ok.injEq]

theorem input_eq_error {content : Bytes} {failure : Failure}
    (failed : input settings content = .error failure) :
    settings.hex = true ∧ ∃ problem, failure = .hex problem ∧
      HexInput.read content = .error problem := by
  rw [input] at failed
  split_ifs at failed with hex
  cases ran : HexInput.read content with
  | ok bytes =>
      rw [ran] at failed
      cases failed
  | error problem =>
      rw [ran] at failed
      cases failed
      exact ⟨hex, problem, rfl, rfl⟩

theorem find_file (content : Bytes) :
    find settings (.file content) =
      match input settings content with
      | .error failure => .error failure
      | .ok bytes =>
          match Message.ofBytes settings.policy bytes with
          | .error fault => .error (.message fault)
          | .ok found => .ok (found, bytes.length) := by
  change (input settings content >>= _) = _
  cases input settings content with
  | error failure => rfl
  | ok bytes =>
      change (Except.mapError _ (Message.ofBytes settings.policy bytes) >>= _) = _
      dsimp only
      cases Message.ofBytes settings.policy bytes <;> rfl

theorem find_of_gives (gives : Gives settings entry bytes) :
    find settings entry =
      match Message.ofBytes settings.policy bytes with
      | .error fault => .error (.message fault)
      | .ok found => .ok (found, bytes.length) := by
  rcases gives with ⟨content, rfl, given⟩
  rw [find_file, input_eq_ok_iff.mpr given]

/-- A file holds a message, or there is a reason why it is taken for none. -/
theorem parses_or_explained (settings : Settings) (entry : Entry) :
    (∃ bytes found, Gives settings entry bytes ∧
      Message.ofBytes settings.policy bytes = .ok found) ∨
    ∃ failure : Failure, failure.Explains settings entry ∧
      find settings entry = .error failure := by
  cases entry with
  | missing => exact .inr ⟨.missing, rfl, rfl⟩
  | directory => exact .inr ⟨.directory, rfl, rfl⟩
  | file content =>
      cases given : input settings content with
      | error failure =>
          have ran : find settings (.file content) = .error failure := by
            rw [find_file, given]
          rcases input_eq_error given with ⟨hex, problem, rfl, unread⟩
          exact .inr ⟨.hex problem, ⟨hex, content, rfl, unread⟩, ran⟩
      | ok bytes =>
          have gives : Gives settings (.file content) bytes :=
            ⟨content, rfl, input_eq_ok_iff.mp given⟩
          have ran := find_of_gives gives
          cases parsed : Message.ofBytes settings.policy bytes with
          | error fault =>
              rw [parsed] at ran
              exact .inr ⟨.message fault, ⟨bytes, gives, parsed⟩, ran⟩
          | ok found => exact .inl ⟨bytes, found, gives, parsed⟩

/-- What the command tells of one file. -/
theorem truthful_summary (settings : Settings) (path : Bytes) (entry : Entry) :
    (summary [examine settings path entry]).Truthful settings path entry where
  shown bytes found gives parses := by
    have ran := find_of_gives gives
    rw [parses] at ran
    rw [examine, ran, report_eq_describe parses]
    simp [summary]
  refused nothing := by
    rcases parses_or_explained settings entry with parses | ⟨failure, explains, ran⟩
    · exact absurd parses nothing
    · refine ⟨failure, explains, ?_⟩
      rw [examine, ran]
      simp [summary, Verdict.failure]

end Dump

/-! ## Several files -/

namespace CommandLine

/-- The same options with a single file. -/
def alone (command : CommandLine) (path : Bytes) : CommandLine where
  items := command.items.filter (·.path?.isNone) ++ [.file path]

variable {command : CommandLine} {path : Bytes}

theorem settings_alone (command : CommandLine) (path : Bytes) :
    (command.alone path).settings = command.settings := by
  have options (items : List Item) (settings : Settings) :
      (items.filter (·.path?.isNone)).foldl (fun settings item => item.apply settings) settings =
        items.foldl (fun settings item => item.apply settings) settings := by
    induction items generalizing settings with
    | nil => rfl
    | cons item later induction => cases item <;> exact induction _
  rw [settings, alone, List.foldl_append, options]
  rfl

theorem files_alone (command : CommandLine) (path : Bytes) :
    (command.alone path).files = [path] := by
  have options : (command.items.filter (·.path?.isNone)).filterMap Item.path? = [] := by
    apply List.filterMap_eq_nil_iff.mpr
    intro item member
    exact Option.isNone_iff_eq_none.mp (List.mem_filter.mp member).2
  rw [files, alone, List.filterMap_append, options]
  rfl

theorem Valid.alone (valid : command.Valid) (member : path ∈ command.files) :
    (command.alone path).Valid where
  items := by
    intro item here
    rcases List.mem_append.mp here with option | file
    · exact valid.items item (List.mem_filter.mp option).1
    · rcases List.mem_filterMap.mp member with ⟨found, among, named⟩
      have same : found = .file path := by
        cases found <;> cases named
        rfl
      rw [List.mem_singleton.mp file, ← same]
      exact valid.items found among
  ending := trivial

end CommandLine

namespace Dump

/-- The outputs of several runs in order, and an exit that tells whether all of
them went well. -/
structure Result.Gathers (result : Result) (parts : List Result) : Prop where
  out : result.out = parts.flatMap (·.out)
  err : result.err = parts.flatMap (·.err)
  exit : result.exit = if ∀ part ∈ parts, part.exit = 0 then 0 else 1

theorem exit_summary_one (verdict : Verdict) :
    (summary [verdict]).exit = 0 ↔ verdict.failed = false := by
  cases failed : verdict.failed <;> simp [summary, failed]

theorem gathers_summary (verdicts : List Verdict) :
    (summary verdicts).Gathers (verdicts.map fun verdict => summary [verdict]) where
  out := by simp [summary, List.flatMap_map]
  err := by simp [summary, List.flatMap_map]
  exit := by
    simp only [List.forall_mem_map, exit_summary_one]
    simp only [summary, List.any_eq_true]
    by_cases well : ∀ verdict ∈ verdicts, verdict.failed = false
    · have noneFailed : ¬ ∃ verdict ∈ verdicts, verdict.failed = true := by
        rintro ⟨verdict, member, failed⟩
        rw [well verdict member] at failed
        cases failed
      rw [if_neg noneFailed, if_pos well]
    · have someFailed : ∃ verdict ∈ verdicts, verdict.failed = true := by
        simpa using well
      rw [if_pos someFailed, if_neg well]

variable {program : Bytes} {store : Bytes → Entry} {command : CommandLine}

theorem run_spelling (valid : command.Valid) (complete : command.ending = .complete)
    (some : command.files ≠ []) :
    run program command.spelling store =
      summary (command.files.map fun path => examine command.settings path (store path)) := by
  rw [run, CommandLine.ofArguments_spelling valid, complete, Ending.request]
  cases files : command.files with
  | nil => exact absurd files some
  | cons first rest => rfl

theorem run_alone (valid : command.Valid) {path : Bytes} (member : path ∈ command.files) :
    run program (command.alone path).spelling store =
      summary [examine command.settings path (store path)] := by
  have several : (command.alone path).files ≠ [] := by
    rw [command.files_alone path]
    exact List.cons_ne_nil _ _
  rw [run_spelling (valid.alone member) rfl several, command.files_alone path,
    command.settings_alone path]
  rfl

/-- Every list of arguments is one command line. One that ends in a call for help
or in a mistake is answered without a look at any file, and so is one without
files. Otherwise the outputs are those of each file alone under the same
options, in order and with repetitions. A file that holds a message is told of
on the one side only, any other in one line on the other. -/
theorem run_gathers_files :
    (∀ arguments, ∃! command : CommandLine, command.Valid ∧ command.spelling = arguments) ∧
    ∀ command : CommandLine, command.Valid → ∀ (program : Bytes) (store : Bytes → Entry),
      (∀ text rest, command.ending = .help text rest →
        run program command.spelling store = { exit := 0, err := usage program }) ∧
      (∀ misuse, command.ending.misuse? = some misuse →
        run program command.spelling store =
          { exit := 2, err := line program misuse.text ++ usage program }) ∧
      (command.ending = .complete → command.files = [] →
        run program command.spelling store = { exit := 2, err := usage program }) ∧
      (command.ending ≠ .complete →
        Request.files (Request.ofArguments command.spelling) = []) ∧
      (command.ending = .complete → command.files ≠ [] →
        (run program command.spelling store).Gathers (command.files.map fun path =>
          run program (command.alone path).spelling store) ∧
        ∀ path ∈ command.files,
          (run program (command.alone path).spelling store).Truthful command.settings path
            (store path)) := by
  refine ⟨CommandLine.existsUnique_spelling, ?_⟩
  intro command valid program store
  have asked := CommandLine.ofArguments_spelling valid
  refine ⟨?_, ?_, ?_, ?_, ?_⟩
  · intro text rest help
    rw [run, asked, help, Ending.request]
  · intro misuse wrong
    rw [run, asked]
    cases ending : command.ending <;> rw [ending] at wrong <;> cases wrong <;> rfl
  · intro complete nothing
    rw [run, asked, complete, nothing, Ending.request]
  · intro incomplete
    rw [asked]
    cases ending : command.ending with
    | complete => exact absurd ending incomplete
    | _ => rfl
  · intro complete several
    constructor
    · rw [run_spelling valid complete several]
      have gathers := gathers_summary
        (command.files.map fun path => examine command.settings path (store path))
      rw [List.map_map] at gathers
      rw [List.map_congr_left fun path member => run_alone valid member]
      exact gathers
    · intro path member
      rw [run_alone valid member]
      exact truthful_summary command.settings path (store path)

/-- A message in hexadecimal text, with one byte behind it, and nothing else. -/
def sampleStore (path : Bytes) : Entry :=
  if path = ascii "a" then
    .file (ascii "00000007 00000001 00000001 00000000 00000002 00000002 09")
  else .missing

def sampleCommand : CommandLine where
  items := [.file (ascii "a"), .limit .gids (ascii "3") 3, .file (ascii "b"), .hex,
    .file (ascii "a")]

theorem run_gathers_files_sample :
    sampleCommand.Valid ∧
      run (ascii "rpcdump") sampleCommand.spelling sampleStore = {
        exit := 1
        out := (List.replicate 2 (
          ascii "a: RpcMessage\x7bxid=0x00000007, REPLY\x7bMSG_DENIED, RPC_MISMATCH\x7b2..2" ++
          ascii "\x7d\x7d\x7d\na: 1 trailing bytes after message\n")).flatten
        err := ascii "b: cannot open b\n" } ∧
      (run (ascii "rpcdump") sampleCommand.spelling sampleStore).Gathers
        (sampleCommand.files.map fun path =>
          run (ascii "rpcdump") (sampleCommand.alone path).spelling sampleStore) ∧
      (run (ascii "rpcdump") (sampleCommand.alone (ascii "b")).spelling sampleStore).Truthful
        sampleCommand.settings (ascii "b") .missing := by
  have valid : sampleCommand.Valid := by
    have first : (ascii "a").head? ≠ some 0x2d := by decide
    have second : (ascii "b").head? ≠ some 0x2d := by decide
    refine ⟨?_, trivial⟩
    simp only [sampleCommand, List.forall_mem_cons]
    exact ⟨first, rfl, second, trivial, first, fun _ member => absurd member List.not_mem_nil⟩
  rcases run_gathers_files with ⟨_, commands⟩
  rcases commands sampleCommand valid (ascii "rpcdump") sampleStore with ⟨_, _, _, _, files⟩
  rcases files rfl (by decide) with ⟨gathers, truthful⟩
  exact ⟨valid, by rfl, gathers, truthful (ascii "b") (by decide)⟩

end Dump

end RpcWire
