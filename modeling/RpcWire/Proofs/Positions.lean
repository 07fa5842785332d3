import Mathlib.Data.List.Induction
import RpcWire.Proofs.Dump

namespace RpcWire

/-! # Where options stand

What the dump command does depends on its files in order, on the flags that are given
at all and on the last value of each limit. Where the options stand among the files
and each other, and how often they are repeated, makes no difference. -/

/-! ## What the settings are -/

def Limit.get : Limit → Settings → UInt32
  | gids, settings => settings.policy.maxGids
  | body, settings => settings.policy.maxBody

namespace Item

variable {item : Item} {settings : Settings}

/-- The value that an item gives a limit. -/
def limit? (which : Limit) : Item → Option UInt32
  | limit other _ number => if other = which then some number else none
  | hex | strictPadding | file _ => none

theorem hex_apply : (item.apply settings).hex = true ↔ item = .hex ∨ settings.hex = true := by
  cases item with
  | limit which value number => cases which <;> simp [apply, Limit.set]
  | _ => simp [apply]

theorem strictPadding_apply : (item.apply settings).policy.strictPadding = true ↔
    item = .strictPadding ∨ settings.policy.strictPadding = true := by
  cases item with
  | limit which value number => cases which <;> simp [apply, Limit.set]
  | _ => simp [apply]

theorem get_apply (which : Limit) :
    which.get (item.apply settings) = (item.limit? which).getD (which.get settings) := by
  cases item with
  | limit other value number => cases which <;> cases other <;> rfl
  | _ => cases which <;> rfl

end Item

theorem Settings.ext_of_limits {left right : Settings} (hex : left.hex = right.hex)
    (strictPadding : left.policy.strictPadding = right.policy.strictPadding)
    (limits : ∀ which : Limit, which.get left = which.get right) : left = right := by
  rcases left with ⟨_, _, _, _⟩
  rcases right with ⟨_, _, _, _⟩
  cases hex
  cases strictPadding
  cases limits .gids
  cases limits .body
  rfl

namespace CommandLine

variable {command left right : CommandLine}

/-- The value that a limit is given last. -/
def last? (command : CommandLine) (which : Limit) : Option UInt32 :=
  (command.items.filterMap (Item.limit? which)).getLast?

/-- The settings tell which flags are given and the last value of each limit. -/
structure SetBy (settings : Settings) (items : List Item) : Prop where
  hex : settings.hex = true ↔ .hex ∈ items
  strictPadding : settings.policy.strictPadding = true ↔ .strictPadding ∈ items
  limits (which : Limit) :
    which.get settings = (items.filterMap (Item.limit? which)).getLast?.getD 0

/-- One more item behind the others either gives a flag or a last value or nothing. -/
theorem SetBy.snoc {settings : Settings} {items : List Item} (set : SetBy settings items)
    (item : Item) : SetBy (item.apply settings) (items ++ [item]) where
  hex := by
    rw [Item.hex_apply, set.hex, List.mem_append, List.mem_singleton, or_comm, eq_comm]
  strictPadding := by
    rw [Item.strictPadding_apply, set.strictPadding, List.mem_append, List.mem_singleton, or_comm,
      eq_comm]
  limits which := by
    rw [Item.get_apply, set.limits, List.filterMap_append]
    cases gives : item.limit? which with
    | none => simp [gives]
    | some number => simp [gives]

theorem setBy_foldl (items : List Item) :
    SetBy (items.foldl (fun settings item => item.apply settings) {}) items := by
  induction items using List.reverseRecOn with
  | nil => exact ⟨by simp, by simp, fun which => by cases which <;> rfl⟩
  | append_singleton items item induction =>
      rw [List.foldl_append]
      exact induction.snoc item

theorem setBy_settings (command : CommandLine) : SetBy command.settings command.items :=
  setBy_foldl command.items

/-! ## What counts of a command line -/

structure Alike (left right : CommandLine) : Prop where
  files : left.files = right.files
  hex : .hex ∈ left.items ↔ .hex ∈ right.items
  strictPadding : .strictPadding ∈ left.items ↔ .strictPadding ∈ right.items
  limits (which : Limit) : left.last? which = right.last? which

theorem Alike.settings (alike : left.Alike right) : left.settings = right.settings := by
  have setLeft := left.setBy_settings
  have setRight := right.setBy_settings
  apply Settings.ext_of_limits
  · exact Bool.eq_iff_iff.mpr (setLeft.hex.trans (alike.hex.trans setRight.hex.symm))
  · exact Bool.eq_iff_iff.mpr
      (setLeft.strictPadding.trans (alike.strictPadding.trans setRight.strictPadding.symm))
  · intro which
    have last := alike.limits which
    rw [last?, last?] at last
    rw [setLeft.limits, setRight.limits, last]

/-- An option may change its place with a file. -/
theorem alike_of_swapped (front back : List Item) (path : Bytes) {option : Item}
    (noFile : option.path? = none) :
    Alike { items := front ++ .file path :: option :: back }
      { items := front ++ option :: .file path :: back } where
  files := by
    have named : Item.path? (.file path) = some path := rfl
    rw [files, files, List.filterMap_append, List.filterMap_append,
      List.filterMap_cons_some named, List.filterMap_cons_none noFile,
      List.filterMap_cons_none noFile, List.filterMap_cons_some named]
  hex := by simp
  strictPadding := by simp
  limits which := by
    have noLimit : Item.limit? which (.file path) = none := rfl
    rw [last?, last?, List.filterMap_append, List.filterMap_append,
      List.filterMap_cons_none noLimit, List.filterMap_cons, List.filterMap_cons]
    cases option.limit? which with
    | none => rw [List.filterMap_cons_none noLimit]
    | some number => rw [List.filterMap_cons_none noLimit]

/-! ## Lists of arguments -/

/-- Items in front are taken apart for themselves, a value with the option that it
belongs to, whatever it looks like. -/
theorem parse_append {front : List Item} (valid : ∀ item ∈ front, item.Valid)
    (rest : List Bytes) :
    parse (front.flatMap Item.spelling ++ rest) =
      { parse rest with items := front ++ (parse rest).items } := by
  induction front with
  | nil => rfl
  | cons item later induction =>
      rcases List.forall_mem_cons.mp valid with ⟨validItem, validLater⟩
      rw [List.flatMap_cons, List.append_assoc, parse_item validItem, induction validLater]
      rfl

theorem ofArguments_eq (arguments : List Bytes) :
    Request.ofArguments arguments =
      (parse arguments).ending.request (parse arguments).settings (parse arguments).files := by
  rcases valid_parse arguments with ⟨valid, spelled⟩
  have asked := ofArguments_spelling valid
  rwa [spelled] at asked

/-- Behind valid items the rest is asked for with what these have set. -/
theorem ofArguments_append {front : List Item} (valid : ∀ item ∈ front, item.Valid)
    (rest : List Bytes) :
    Request.ofArguments (front.flatMap Item.spelling ++ rest) =
      Request.scan (CommandLine.mk front .complete).settings
        (CommandLine.mk front .complete).files rest := by
  rw [Request.ofArguments, scan_eq, scan_eq, parse_append valid, List.foldl_append,
    List.filterMap_append, List.nil_append]
  rfl

/-- Without a call for help and without a mistake, files are to be looked at. -/
theorem complete_iff {arguments : List Bytes} :
    (parse arguments).ending = .complete ↔
      ∃ settings files, Request.ofArguments arguments = .ok (.examine settings files) := by
  rw [ofArguments_eq]
  constructor
  · intro complete
    rw [complete]
    exact ⟨_, _, rfl⟩
  · rintro ⟨settings, files, asked⟩
    cases ending : (parse arguments).ending with
    | complete => rfl
    | help text rest =>
        rw [ending] at asked
        cases asked
    | unknownOption text rest =>
        rw [ending] at asked
        cases asked
    | missingValue which =>
        rw [ending] at asked
        cases asked
    | badNumber which value rest =>
        rw [ending] at asked
        cases asked

end CommandLine

namespace Dump

open CommandLine

theorem run_of_complete {arguments : List Bytes}
    (complete : (parse arguments).ending = .complete) (program : Bytes) (store : Bytes → Entry) :
    run program arguments store =
      if (parse arguments).files = [] then { exit := 2, err := usage program }
      else summary ((parse arguments).files.map fun path =>
        examine (parse arguments).settings path (store path)) := by
  rw [run, ofArguments_eq, complete, Ending.request]
  cases (parse arguments).files with
  | nil => rfl
  | cons first rest => rfl

/-- Two lists of arguments without a call for help and without a mistake that are alike
are answered alike, and every file is judged by all flags and by the last value of each
limit. -/
theorem run_by_what_is_given :
    (∀ arguments, (∃! command : CommandLine, command.Valid ∧ command.spelling = arguments) ∧
      (parse arguments).Valid ∧ (parse arguments).spelling = arguments ∧
      ((parse arguments).ending = .complete ↔
        ∃ settings files, Request.ofArguments arguments = .ok (.examine settings files))) ∧
    (∀ left right : List Bytes, (parse left).ending = .complete →
      (parse right).ending = .complete → (parse left).Alike (parse right) →
      ∀ (program : Bytes) (store : Bytes → Entry),
        run program left store = run program right store) ∧
    (∀ arguments : List Bytes, (parse arguments).ending = .complete →
      (parse arguments).files ≠ [] →
      SetBy (parse arguments).settings (parse arguments).items ∧
      ∀ (program : Bytes) (store : Bytes → Entry), run program arguments store =
        summary ((parse arguments).files.map fun path =>
          examine (parse arguments).settings path (store path))) ∧
    (∀ (front back : List Item) (path : Bytes) (option : Item), option.path? = none →
      Alike { items := front ++ .file path :: option :: back }
        { items := front ++ option :: .file path :: back }) ∧
    ∀ (front : List Item) (which : Limit) (value : Bytes) (rest : List Bytes),
      (∀ item ∈ front, item.Valid) →
      parse (front.flatMap Item.spelling ++ which.option :: value :: rest) =
        match readLimit? value with
        | some number => {
            items := front ++ .limit which value number :: (parse rest).items
            ending := (parse rest).ending }
        | none => { items := front, ending := .badNumber which value rest } := by
  refine ⟨?_, ?_, ?_, ?_, ?_⟩
  · intro arguments
    rcases valid_parse arguments with ⟨valid, spelled⟩
    exact ⟨existsUnique_spelling arguments, valid, spelled, complete_iff⟩
  · intro left right completeLeft completeRight alike program store
    rw [run_of_complete completeLeft, run_of_complete completeRight, alike.files, alike.settings]
  · intro arguments complete several
    refine ⟨setBy_settings _, fun program store => ?_⟩
    rw [run_of_complete complete, if_neg several]
  · intro front back path option noFile
    exact alike_of_swapped front back path noFile
  · intro front which value rest valid
    have option : Argument.of which.option = .limit which := Argument.of_eq_iff.mpr rfl
    rw [parse_append valid]
    cases reads : readLimit? value with
    | some number => simp only [parse, option, reads, cons]
    | none => simp only [parse, option, reads, only, List.append_nil]

/-- Options among the files and behind them, one of them given twice. The first file is
read as hexadecimal text because of an option behind it. -/
def scattered : List Bytes :=
  ["--max-aux-gids", "9", "a", "--hex", "b", "--max-aux-gids", "3"].map ascii

/-- The same with all options in front. -/
def gathered : List Bytes := ["--hex", "--max-aux-gids", "3", "--hex", "a", "b"].map ascii

theorem run_by_what_is_given_sample :
    (parse scattered).ending = .complete ∧ (parse gathered).ending = .complete ∧
      (parse scattered).Alike (parse gathered) ∧
      run (ascii "rpcdump") scattered sampleStore = run (ascii "rpcdump") gathered sampleStore ∧
      run (ascii "rpcdump") scattered sampleStore = {
        exit := 1
        out :=
          ascii "a: RpcMessage\x7bxid=0x00000007, REPLY\x7bMSG_DENIED, RPC_MISMATCH\x7b2..2" ++
          ascii "\x7d\x7d\x7d\na: 1 trailing bytes after message\n"
        err := ascii "b: cannot open b\n" } ∧
      (run (ascii "rpcdump") [ascii "a"] sampleStore).out = [] ∧
      SetBy (parse scattered).settings (parse scattered).items ∧
      Alike { items := [.file (ascii "a"), .hex] } { items := [.hex, .file (ascii "a")] } ∧
      parse [ascii "a", Limit.gids.option, ascii "--hex", ascii "b"] =
        { items := [.file (ascii "a")]
          ending := .badNumber .gids (ascii "--hex") [ascii "b"] } := by
  rcases run_by_what_is_given with ⟨_, same, judged, swapped, values⟩
  have completeScattered : (parse scattered).ending = .complete := rfl
  have completeGathered : (parse gathered).ending = .complete := rfl
  have alike : (parse scattered).Alike (parse gathered) := by
    have apart : parse scattered = { items := [.limit .gids (ascii "9") 9, .file (ascii "a"), .hex,
        .file (ascii "b"), .limit .gids (ascii "3") 3] } := rfl
    have together : parse gathered = { items := [.hex, .limit .gids (ascii "3") 3, .hex,
        .file (ascii "a"), .file (ascii "b")] } := rfl
    rw [apart, together]
    exact ⟨rfl, by simp, by simp, fun which => by cases which <;> rfl⟩
  have valid : ∀ item ∈ [Item.file (ascii "a")], item.Valid := by
    have plain : (ascii "a").head? ≠ some 0x2d := by decide
    rw [List.forall_mem_singleton]
    exact plain
  exact ⟨completeScattered, completeGathered, alike,
    same scattered gathered completeScattered completeGathered alike _ _, by decide +kernel,
    by decide +kernel, (judged scattered completeScattered (by decide)).1,
    swapped [] [] (ascii "a") .hex rfl,
    values [.file (ascii "a")] .gids (ascii "--hex") [ascii "b"] valid⟩

end Dump

end RpcWire
