import RpcWire.Dump

namespace RpcWire

/-! # Files by their paths

A path is followed part by part, so a file can be spelled by its name behind any path
that leads to its directory. However it is spelled, the command finds what was stored
last under its name. -/

/-! ## The parts of a path -/

theorem components_ne_nil (path : Bytes) : components path ≠ [] := by
  fun_induction components path with
  | case1 => exact List.cons_ne_nil _ _
  | case2 => exact List.cons_ne_nil _ _
  | case3 => exact List.cons_ne_nil _ _
  | case4 => exact List.cons_ne_nil _ _

theorem components_of_plain {name : Bytes} (plain : 0x2f ∉ name) : components name = [name] := by
  induction name with
  | nil => rfl
  | cons byte rest induction =>
      simp only [List.mem_cons, not_or] at plain
      rw [components, if_neg (Ne.symm plain.1), induction plain.2]

theorem components_append (front rest : Bytes) :
    components (front ++ 0x2f :: rest) = components front ++ components rest := by
  induction front with
  | nil => rfl
  | cons byte later induction =>
      rw [List.cons_append, components, components]
      by_cases slash : byte = 0x2f
      · rw [if_pos slash, if_pos slash, induction]
        rfl
      · rw [if_neg slash, if_neg slash, induction]
        cases parts : components later with
        | nil => exact absurd parts (components_ne_nil later)
        | cons first others => rfl

namespace Place

variable {place : Place} {entries : Directory} {name path : Bytes}

/-- Behind a slash a path goes on from where the part in front of it has led. -/
theorem follow_append {front rest : Bytes} (proper : front ≠ [])
    (relative : rest.head? ≠ some 0x2f) (place : Place) :
    place.follow (front ++ 0x2f :: rest) = (place.follow front).bind fun reached =>
      reached.follow rest := by
  have start : (front ++ 0x2f :: rest).head? = front.head? := by
    cases front with
    | nil => exact absurd rfl proper
    | cons byte later => rfl
  simp only [follow, start, components_append, List.foldlM_append, if_neg relative]
  rfl

/-! ## Names -/

/-- What an entry of a directory can be called. -/
structure IsName (name : Bytes) : Prop where
  plain : 0x2f ∉ name
  proper : name ∉ [[], ascii ".", ascii ".."]

theorem IsName.relative (isName : IsName name) : name.head? ≠ some 0x2f :=
  fun slash => isName.plain (List.mem_of_head? slash)

theorem follow_name (isName : IsName name) (is : place.here = .directory entries) :
    place.follow name =
      (entries.lookup name).map fun found =>
        { here := found, above := entries :: place.above } := by
  have proper := isName.proper
  simp only [List.mem_cons, List.not_mem_nil, or_false, not_or] at proper
  rw [follow, components_of_plain isName.plain, if_neg isName.relative]
  simp only [List.foldlM_cons, List.foldlM_nil, step, is, proper, or_self, if_false]
  cases entries.lookup name <;> rfl

/-- The ways to spell a file of a directory. -/
inductive Spells (place : Place) (entries : Directory) (name : Bytes) : Bytes → Prop
  | here (is : place.here = .directory entries) : Spells place entries name name
  | behind {front : Bytes} {reached : Place} (proper : front ≠ [])
      (leads : place.follow front = some reached) (is : reached.here = .directory entries) :
      Spells place entries name (front ++ 0x2f :: name)

theorem Spells.ne_nil (spells : place.Spells entries name path) (isName : IsName name) :
    path ≠ [] := by
  cases spells with
  | here => exact fun empty => isName.proper (empty ▸ List.mem_cons_self)
  | behind proper => exact fun empty => proper (List.append_eq_nil_iff.mp empty).1

theorem entry_of_short (some : path ≠ []) (short : path.length < tooLong) :
    place.entry path = (place.follow path).elim .missing fun found => found.here.entry := by
  rw [entry, if_neg (not_or.mpr ⟨some, Nat.not_le_of_lt short⟩)]
  cases place.follow path <;> rfl

theorem entry_of_spells (isName : IsName name) (spells : place.Spells entries name path)
    (short : path.length < tooLong) :
    place.entry path = (entries.lookup name).elim .missing FileTree.entry := by
  have named {reached : Place} (is : reached.here = .directory entries) :
      ((reached.follow name).elim .missing fun found => found.here.entry) =
        (entries.lookup name).elim .missing FileTree.entry := by
    rw [follow_name isName is]
    cases entries.lookup name <;> rfl
  rw [entry_of_short (spells.ne_nil isName) short]
  cases spells with
  | here is => exact named is
  | behind proper leads is =>
      rw [follow_append proper isName.relative, leads]
      exact named is

end Place

/-! ## What has been stored -/

namespace Directory

/-- Files without a slash in their names lie beside each other, the last one in front. -/
theorem ofFiles_eq {files : List (Bytes × Bytes)} (plain : ∀ file ∈ files, 0x2f ∉ file.1) :
    ofFiles files = files.reverse.map fun file => (file.1, .file file.2) := by
  have stored (entries : Directory) :
      files.foldl (fun entries file => put file.2 (components file.1) entries) entries =
        (files.reverse.map fun file => (file.1, .file file.2)) ++ entries := by
    induction files generalizing entries with
    | nil => rfl
    | cons file later induction =>
        rcases List.forall_mem_cons.mp plain with ⟨first, others⟩
        rw [List.foldl_cons, induction others, components_of_plain first, List.reverse_cons,
          List.map_append, List.append_assoc]
        rfl
  exact (stored []).trans (List.append_nil _)

theorem lookup_ofFiles {files : List (Bytes × Bytes)} (plain : ∀ file ∈ files, 0x2f ∉ file.1)
    (name : Bytes) : (ofFiles files).lookup name = (files.reverse.lookup name).map .file := by
  rw [ofFiles_eq plain]
  induction files.reverse with
  | nil => rfl
  | cons file later induction =>
      rw [List.map_cons, List.lookup_cons, List.lookup_cons, induction]
      cases name == file.1 <;> rfl

end Directory

open Place

/-- The command judges each file by what was stored last under its name in the directory,
whichever path it is spelled by. Where nothing was stored, nothing can be opened. -/
theorem Dump.run_in_directory {place : Place} {files : List (Bytes × Bytes)}
    (plain : ∀ file ∈ files, 0x2f ∉ file.1) {arguments paths : List Bytes} {settings : Settings}
    (asked : Request.ofArguments arguments = .ok (.examine settings paths)) (some : paths ≠ [])
    (name : Bytes → Bytes) (named : ∀ path ∈ paths, IsName (name path))
    (spelled : ∀ path ∈ paths, place.Spells (Directory.ofFiles files) (name path) path)
    (short : ∀ path ∈ paths, path.length < tooLong) (program : Bytes) :
    run program arguments place.entry =
      summary (paths.map fun path =>
        examine settings path ((files.reverse.lookup (name path)).elim .missing .file)) := by
  have found (path : Bytes) (member : path ∈ paths) :
      place.entry path = (files.reverse.lookup (name path)).elim .missing .file := by
    rw [entry_of_spells (named path member) (spelled path member) (short path member),
      Directory.lookup_ofFiles plain]
    cases files.reverse.lookup (name path) <;> rfl
  have judged : run program arguments place.entry =
      summary (paths.map fun path => examine settings path (place.entry path)) := by
    rw [run, asked]
    cases paths with
    | nil => exact absurd rfl some
    | cons first rest => rfl
  rw [judged]
  congr 1
  apply List.map_congr_left
  intro path member
  rw [found path member]

end RpcWire
