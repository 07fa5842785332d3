import Mathlib.Logic.ExistsUnique
import Mathlib.Tactic.SplitIfs
import RpcWire.Arguments

namespace RpcWire

/-! # Command lines

From left to right a list of arguments is a number of items, which are options
with their values and files, up to an ending: the end of the list, the first
call for help or the first mistake. What stands behind that is never looked at. -/

/-! ## Single arguments -/

def Limit.option : Limit → Bytes
  | gids => ascii "--max-aux-gids"
  | body => ascii "--max-auth-body"

namespace Argument

def options : List Bytes :=
  [ascii "-h", ascii "--help", ascii "--hex", ascii "--strict-padding", Limit.gids.option,
    Limit.body.option]

def Spells : Argument → Bytes → Prop
  | help, text => text = ascii "-h" ∨ text = ascii "--help"
  | hex, text => text = ascii "--hex"
  | strictPadding, text => text = ascii "--strict-padding"
  | limit which, text => text = which.option
  | unknownOption, text => text.head? = some 0x2d ∧ text ∉ options
  | file, text => text.head? ≠ some 0x2d

theorem head?_of_mem_options : ∀ option ∈ options, option.head? = some 0x2d := by decide

theorem of_of_not_mem_options {text : Bytes} (unlisted : text ∉ options) :
    of text = if text.head? = some 0x2d then unknownOption else file := by
  simp only [options, Limit.option, List.mem_cons, List.not_mem_nil, or_false, not_or] at unlisted
  simp only [of, unlisted, or_self, if_false]

theorem of_eq_iff {text : Bytes} {argument : Argument} :
    of text = argument ↔ argument.Spells text := by
  constructor
  · rintro rfl
    by_cases listed : text ∈ options
    · simp only [options, List.mem_cons, List.not_mem_nil, or_false] at listed
      rcases listed with rfl | rfl | rfl | rfl | rfl | rfl
      · exact .inl rfl
      · exact .inr rfl
      · rfl
      · rfl
      · rfl
      · rfl
    · rw [of_of_not_mem_options listed]
      split_ifs with dash
      · exact ⟨dash, listed⟩
      · exact dash
  · intro spells
    cases argument with
    | help => rcases spells with rfl | rfl <;> rfl
    | hex => exact spells ▸ rfl
    | strictPadding => exact spells ▸ rfl
    | limit which => cases which <;> exact spells ▸ rfl
    | unknownOption => rw [of_of_not_mem_options spells.2, if_pos spells.1]
    | file =>
        have unlisted : text ∉ options := fun listed => spells (head?_of_mem_options text listed)
        rw [of_of_not_mem_options unlisted, if_neg spells]

end Argument

/-! ## Items -/

/-- An option with its value, or a file. -/
inductive Item where
  | hex
  | strictPadding
  | limit (which : Limit) (value : Bytes) (number : UInt32)
  | file (path : Bytes)

namespace Item

def spelling : Item → List Bytes
  | hex => [ascii "--hex"]
  | strictPadding => [ascii "--strict-padding"]
  | limit which value _ => [which.option, value]
  | file path => [path]

def Valid : Item → Prop
  | hex | strictPadding => True
  | limit _ value number => readLimit? value = some number
  | file path => path.head? ≠ some 0x2d

def apply : Item → Settings → Settings
  | hex, settings => { settings with hex := true }
  | strictPadding, settings => { settings with policy.strictPadding := true }
  | limit which _ number, settings => which.set number settings
  | file _, settings => settings

def path? : Item → Option Bytes
  | file path => some path
  | hex | strictPadding | limit .. => none

end Item

/-! ## Endings -/

/-- Where the arguments are no longer items. -/
inductive Ending where
  | complete
  | help (text : Bytes) (rest : List Bytes)
  | unknownOption (text : Bytes) (rest : List Bytes)
  | missingValue (which : Limit)
  | badNumber (which : Limit) (value : Bytes) (rest : List Bytes)

namespace Ending

def spelling : Ending → List Bytes
  | complete => []
  | help text rest | unknownOption text rest => text :: rest
  | missingValue which => [which.option]
  | badNumber which value rest => which.option :: value :: rest

def Valid : Ending → Prop
  | complete | missingValue _ => True
  | help text _ => text = ascii "-h" ∨ text = ascii "--help"
  | unknownOption text _ => text.head? = some 0x2d ∧ text ∉ Argument.options
  | badNumber _ value _ => readLimit? value = none

def misuse? : Ending → Option Misuse
  | complete | help .. => none
  | unknownOption text _ => some (.unknownOption text)
  | missingValue which => some (.missingValue which.option)
  | badNumber _ value _ => some (.badNumber value)

/-- What is asked for when the items have set this much. -/
def request (settings : Settings) (files : List Bytes) : Ending → Except Misuse Request
  | complete => .ok (.examine settings files)
  | help .. => .ok .help
  | unknownOption text _ => .error (.unknownOption text)
  | missingValue which => .error (.missingValue which.option)
  | badNumber _ value _ => .error (.badNumber value)

end Ending

/-! ## Whole command lines -/

structure CommandLine where
  items : List Item
  ending : Ending := .complete

namespace CommandLine

def spelling (command : CommandLine) : List Bytes :=
  command.items.flatMap Item.spelling ++ command.ending.spelling

structure Valid (command : CommandLine) : Prop where
  items : ∀ item ∈ command.items, item.Valid
  ending : command.ending.Valid

/-- The last of several options of one kind wins. -/
def settings (command : CommandLine) : Settings :=
  command.items.foldl (fun settings item => item.apply settings) {}

def files (command : CommandLine) : List Bytes := command.items.filterMap Item.path?

def cons (item : Item) (command : CommandLine) : CommandLine :=
  { command with items := item :: command.items }

theorem spelling_cons (item : Item) (command : CommandLine) :
    (command.cons item).spelling = item.spelling ++ command.spelling := by
  rw [spelling, cons, List.flatMap_cons, List.append_assoc]
  rfl

theorem Valid.cons {item : Item} {command : CommandLine} (validItem : item.Valid)
    (valid : command.Valid) : (command.cons item).Valid where
  items := List.forall_mem_cons.mpr ⟨validItem, valid.items⟩
  ending := valid.ending

/-- Nothing but an ending. -/
def only (ending : Ending) : CommandLine where
  items := []
  ending := ending

theorem valid_only {ending : Ending} (valid : ending.Valid) : (only ending).Valid where
  items _ member := absurd member List.not_mem_nil
  ending := valid

/-- The arguments taken apart, from left to right. -/
def parse : List Bytes → CommandLine
  | [] => only .complete
  | text :: rest =>
      match Argument.of text with
      | .help => only (.help text rest)
      | .hex => (parse rest).cons .hex
      | .strictPadding => (parse rest).cons .strictPadding
      | .limit which =>
          match rest with
          | [] => only (.missingValue which)
          | value :: rest =>
              match readLimit? value with
              | some number => (parse rest).cons (.limit which value number)
              | none => only (.badNumber which value rest)
      | .unknownOption => only (.unknownOption text rest)
      | .file => (parse rest).cons (.file text)

/-! ### Every list of arguments is one command line -/

theorem parse_item {item : Item} (valid : item.Valid) (rest : List Bytes) :
    parse (item.spelling ++ rest) = (parse rest).cons item := by
  cases item with
  | hex => rfl
  | strictPadding => rfl
  | limit which value number =>
      have option : Argument.of which.option = .limit which := Argument.of_eq_iff.mpr rfl
      have reads : readLimit? value = some number := valid
      simp only [Item.spelling, List.cons_append, List.nil_append, parse, option, reads]
  | file path =>
      have file : Argument.of path = .file := Argument.of_eq_iff.mpr valid
      simp only [Item.spelling, List.cons_append, List.nil_append, parse, file]

theorem parse_ending {ending : Ending} (valid : ending.Valid) :
    parse ending.spelling = only ending := by
  cases ending with
  | complete => rfl
  | help text rest =>
      have option : Argument.of text = .help := Argument.of_eq_iff.mpr valid
      simp only [Ending.spelling, parse, option]
  | unknownOption text rest =>
      have option : Argument.of text = .unknownOption := Argument.of_eq_iff.mpr valid
      simp only [Ending.spelling, parse, option]
  | missingValue which =>
      have option : Argument.of which.option = .limit which := Argument.of_eq_iff.mpr rfl
      simp only [Ending.spelling, parse, option]
  | badNumber which value rest =>
      have option : Argument.of which.option = .limit which := Argument.of_eq_iff.mpr rfl
      have unread : readLimit? value = none := valid
      simp only [Ending.spelling, parse, option, unread]

theorem parse_spelling {command : CommandLine} (valid : command.Valid) :
    parse command.spelling = command := by
  rcases command with ⟨items, ending⟩
  induction items with
  | nil => exact parse_ending valid.ending
  | cons item later induction =>
      rcases List.forall_mem_cons.mp valid.items with ⟨validItem, validLater⟩
      have same : (CommandLine.mk (item :: later) ending) = (mk later ending).cons item := rfl
      rw [same, spelling_cons, parse_item validItem, induction ⟨validLater, valid.ending⟩]

/-- What is taken apart is valid and is all there was. -/
theorem valid_parse (arguments : List Bytes) :
    (parse arguments).Valid ∧ (parse arguments).spelling = arguments := by
  have consed {item : Item} {command : CommandLine} {rest : List Bytes} (validItem : item.Valid)
      (later : command.Valid ∧ command.spelling = rest) :
      (command.cons item).Valid ∧ (command.cons item).spelling = item.spelling ++ rest :=
    ⟨later.1.cons validItem, by rw [spelling_cons, later.2]⟩
  fun_induction parse arguments with
  | case1 => exact ⟨valid_only trivial, rfl⟩
  | case2 text rest option => exact ⟨valid_only (Argument.of_eq_iff.mp option), rfl⟩
  | case3 text rest option induction =>
      rcases Argument.of_eq_iff.mp option with rfl
      exact consed trivial induction
  | case4 text rest option induction =>
      rcases Argument.of_eq_iff.mp option with rfl
      exact consed trivial induction
  | case5 text which option =>
      rcases Argument.of_eq_iff.mp option with rfl
      exact ⟨valid_only trivial, rfl⟩
  | case6 text which option value rest number reads induction =>
      rcases Argument.of_eq_iff.mp option with rfl
      exact consed reads induction
  | case7 text which option value rest unread =>
      rcases Argument.of_eq_iff.mp option with rfl
      exact ⟨valid_only unread, rfl⟩
  | case8 text rest option => exact ⟨valid_only (Argument.of_eq_iff.mp option), rfl⟩
  | case9 text rest option induction =>
      exact consed (Argument.of_eq_iff.mp option) induction

theorem existsUnique_spelling (arguments : List Bytes) :
    ∃! command : CommandLine, command.Valid ∧ command.spelling = arguments := by
  refine ⟨parse arguments, valid_parse arguments, ?_⟩
  rintro command ⟨valid, rfl⟩
  exact (parse_spelling valid).symm

/-! ### What is asked for -/

/-- The scan keeps what the items have set so far, and gives it up at an ending
that is not the end of the list. -/
theorem scan_eq (settings : Settings) (files arguments : List Bytes) :
    Request.scan settings files arguments =
      (parse arguments).ending.request
        ((parse arguments).items.foldl (fun settings item => item.apply settings) settings)
        (files ++ (parse arguments).items.filterMap Item.path?) := by
  fun_induction Request.scan settings files arguments with
  | case1 settings files =>
      rw [parse, only, List.filterMap_nil, List.append_nil]
      rfl
  | case2 settings files text rest option =>
      simp only [parse, option]
      rfl
  | case3 settings files text rest option induction =>
      simp only [parse, option]
      exact induction
  | case4 settings files text rest option induction =>
      simp only [parse, option]
      exact induction
  | case5 settings files text which option =>
      rcases Argument.of_eq_iff.mp option with rfl
      simp only [parse, option]
      rfl
  | case6 settings files text which option value rest number reads induction =>
      simp only [parse, option, reads]
      exact induction
  | case7 settings files text which option value rest unread =>
      simp only [parse, option, unread]
      rfl
  | case8 settings files text rest option =>
      simp only [parse, option]
      rfl
  | case9 settings files text rest option induction =>
      rw [induction, List.append_assoc]
      simp only [parse, option]
      rfl

theorem ofArguments_spelling {command : CommandLine} (valid : command.Valid) :
    Request.ofArguments command.spelling =
      command.ending.request command.settings command.files := by
  rw [Request.ofArguments, scan_eq, parse_spelling valid, List.nil_append]
  rfl

end CommandLine

end RpcWire
