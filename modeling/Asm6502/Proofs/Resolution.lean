import Asm6502.File.Tree

/-!
# Where paths lead

A path is resolved name by name. `FileTree.Leads` says what each name may do, without the order of
the tests: it is found in a directory and entered; it is a link, and is replaced by its target; or,
if a file is to be made, it is the last one and missing (`FileTree.walk_eq_ok_iff`). What is proved
here of resolved paths goes by induction on these steps.

Resolving is canonical: a path that leads somewhere leads to a file or a directory, not to a link,
and the path of that location from the root leads there as well (`FileTree.locate_path`). So two
paths lead to one place exactly if they have the same canonical path. A file is written where it
would be read, if it is there (`FileTree.locate_eq_ok_iff_destination`).
-/

namespace Asm6502

/-! ### Locations -/

namespace Location

variable {location outer inner : Location} {name : String}

theorem ext_names {location other : Location} (same : location.names = other.names) :
    location = other := by
  cases location
  cases other
  simp_all

theorem contains_iff : outer.contains inner = true ↔ outer.names <:+ inner.names := by
  rw [contains, List.isSuffixOf_iff_suffix]

theorem contains_self (location : Location) : location.contains location = true :=
  contains_iff.mpr List.suffix_rfl

theorem parent_contains (location : Location) : location.parent.contains location = true :=
  contains_iff.mpr (List.tail_suffix _)

theorem root_contains (location : Location) : root.contains location = true :=
  contains_iff.mpr (List.nil_suffix)

@[simp] theorem parent_child (proper : Path.isProper name = true) :
    (location.child name proper).parent = location := ext_names rfl

/-- A name leads into the directory, or stays, or goes up. -/
theorem follow_cases (location : Location) (name : String) :
    (∃ proper, location.follow name = location.child name proper) ∨
      location.follow name = location ∨ location.follow name = location.parent := by
  unfold follow
  split
  · rename_i proper
    exact .inl ⟨proper, rfl⟩
  · split
    · exact .inr (.inr rfl)
    · exact .inr (.inl rfl)

/-- The canonical path of a location has its names behind the first slash. -/
theorem names_path (below : location.names ≠ []) :
    Path.names location.path = "" :: location.names.reverse := by
  have unbroken : ∀ text ∈ location.names.reverse.map String.toList, '/' ∉ text := by
    intro text mem
    obtain ⟨name, listed, rfl⟩ := List.mem_map.mp mem
    have proper := List.all_eq_true.mp location.proper name (List.mem_reverse.mp listed)
    simp only [Path.isProper, Bool.and_eq_true, Bool.not_eq_true', List.contains_eq_mem,
      decide_eq_false_iff_not] at proper
    exact proper.2
  have slash : "/".toList = ['/'] := rfl
  rw [Path.names, path, Path.ofNames, String.toList_append, String.toList_intercalate, slash,
    List.singleton_append, List.splitOn_cons_eq_if_modifyHead, if_pos (by rfl),
    List.splitOn_intercalate '/' unbroken (by simpa using below)]
  simp

end Location

namespace FileTree

variable {tree : FileTree} {location place : Location} {entry : Entry} {making : Bool} {links : Nat}
  {name path : String} {names : List String}

/-! ### Directories and entries -/

theorem isDirectory_iff :
    tree.isDirectory location = true ↔
      location.contains tree.workingDirectory = true ∨
        ∃ listed ∈ tree.entries, location.contains (listed.2.directoryAt listed.1) = true := by
  simp [isDirectory]

/-- What a directory lies in is a directory. -/
theorem isDirectory_of_contains {outer inner : Location} (within : outer.contains inner = true)
    (directory : tree.isDirectory inner = true) : tree.isDirectory outer = true := by
  have step {deeper : Location} (below : inner.contains deeper = true) :
      outer.contains deeper = true :=
    Location.contains_iff.mpr
      ((Location.contains_iff.mp within).trans (Location.contains_iff.mp below))
  obtain working | ⟨listed, mem, below⟩ := isDirectory_iff.mp directory
  · exact isDirectory_iff.mpr (.inl (step working))
  · exact isDirectory_iff.mpr (.inr ⟨listed, mem, step below⟩)

theorem isDirectory_parent (directory : tree.isDirectory location = true) :
    tree.isDirectory location.parent = true :=
  isDirectory_of_contains location.parent_contains directory

theorem isDirectory_workingDirectory (tree : FileTree) :
    tree.isDirectory tree.workingDirectory = true :=
  isDirectory_iff.mpr (.inl (Location.contains_self _))

theorem isDirectory_root (tree : FileTree) : tree.isDirectory .root = true :=
  isDirectory_of_contains (Location.root_contains _) tree.isDirectory_workingDirectory

theorem isDirectory_start (directory : tree.isDirectory location = true) (path : String) :
    tree.isDirectory (location.start path) = true := by
  unfold Location.start
  split
  · exact tree.isDirectory_root
  · exact directory

theorem lookup?_of_isDirectory (directory : tree.isDirectory location = true) :
    tree.lookup? location = some .directory := by
  rw [lookup?, if_pos directory]

/-- What is not a directory is listed. -/
theorem mem_entries_of_lookup? (found : tree.lookup? location = some entry)
    (other : tree.isDirectory location = false) : (location, entry) ∈ tree.entries := by
  rw [lookup?, if_neg (by simp [other])] at found
  obtain ⟨before, after, split, -⟩ := List.lookup_eq_some_iff.mp found
  simp [split]

/-- Everything lies in a directory. -/
theorem isDirectory_parent_of_lookup? (found : tree.lookup? location = some entry) :
    tree.isDirectory location.parent = true := by
  cases kind : tree.isDirectory location with
  | true => exact isDirectory_parent kind
  | false =>
    refine isDirectory_iff.mpr (.inr ⟨_, mem_entries_of_lookup? found kind, ?_⟩)
    cases entry with
    | directory => exact location.parent_contains
    | file bytes => exact Location.contains_self _
    | link target => exact Location.contains_self _

/-- There is a file or a directory at the location. -/
def Exists (tree : FileTree) (location : Location) : Prop :=
  ∃ entry, tree.lookup? location = some entry ∧ ∀ target, entry ≠ .link target

theorem exists_of_isDirectory (directory : tree.isDirectory location = true) :
    tree.Exists location :=
  ⟨.directory, lookup?_of_isDirectory directory, by simp⟩

/-! ### Steps of a path -/

/-- Names lead from a location to a place, over at most `links` links. If a file is to be made
(`making`), the last name may be missing, but no slash must follow it. -/
inductive Leads (tree : FileTree) (making : Bool) :
    (links : Nat) → Location → List String → Location → Prop
  /-- No name is left. -/
  | done {links : Nat} {location : Location} : Leads tree making links location [] location
  /-- The name is that of a file or a directory. -/
  | enter {links : Nat} {location place : Location} {name : String} {names : List String}
      (directory : tree.isDirectory location = true)
      (open_end : making = true → names ≠ [] → names.all String.isEmpty = false)
      (found : tree.Exists (location.follow name))
      (rest : Leads tree making links (location.follow name) names place) :
      Leads tree making links location (name :: names) place
  /-- The name is that of a link. -/
  | link {links : Nat} {location place : Location} {name target : String} {names : List String}
      (directory : tree.isDirectory location = true)
      (open_end : making = true → names ≠ [] → names.all String.isEmpty = false)
      (found : tree.lookup? (location.follow name) = some (.link target))
      (rest : Leads tree making links (location.start target) (Path.names target ++ names) place) :
      Leads tree making (links + 1) location (name :: names) place
  /-- The last name is missing, and a file is to be made. -/
  | make {links : Nat} {location : Location} {name : String} (makes : making = true)
      (directory : tree.isDirectory location = true)
      (missing : tree.lookup? (location.follow name) = none) :
      Leads tree making links location [name] (location.follow name)

theorem walk_nil : tree.walk making links location [] = .ok location := by
  cases links <;> rfl

theorem walk_cons :
    tree.walk making links location (name :: names) =
      if !tree.isDirectory location then .error .notDirectory
      else if making && !names.isEmpty && names.all String.isEmpty then .error .isDirectory
      else
        match tree.lookup? (location.follow name) with
        | none =>
          if making && names.isEmpty then .ok (location.follow name) else .error .notFound
        | some (.link target) =>
          match links with
          | 0 => .error .tooManyLinks
          | links + 1 => tree.walk making links (location.start target) (Path.names target ++ names)
        | some _ => tree.walk making links (location.follow name) names := by
  cases links <;> rfl

/-- A name that is looked up in a directory and may be the last one. -/
theorem walk_cons_of_directory (directory : tree.isDirectory location = true)
    (open_end : making = true → names ≠ [] → names.all String.isEmpty = false) :
    tree.walk making links location (name :: names) =
      match tree.lookup? (location.follow name) with
      | none => if making && names.isEmpty then .ok (location.follow name) else .error .notFound
      | some (.link target) =>
        match links with
        | 0 => .error .tooManyLinks
        | links + 1 => tree.walk making links (location.start target) (Path.names target ++ names)
      | some _ => tree.walk making links (location.follow name) names := by
  rw [walk_cons, if_neg (by simp [directory]), if_neg]
  simpa using open_end

theorem leads_of_walk {links : Nat} {location : Location} {names : List String}
    (walked : tree.walk making links location names = .ok place) :
    tree.Leads making links location names place := by
  cases names with
  | nil =>
    rw [walk_nil] at walked
    cases walked
    exact .done
  | cons name names =>
    rw [walk_cons] at walked
    split at walked
    · cases walked
    · rename_i directory
      replace directory : tree.isDirectory location = true := by simpa using directory
      split at walked
      · cases walked
      · rename_i solid
        have open_end : making = true → names ≠ [] → names.all String.isEmpty = false := by
          simpa using solid
        cases found : tree.lookup? (location.follow name) with
        | none =>
          simp only [found] at walked
          split at walked
          · rename_i last
            obtain ⟨rfl, rfl⟩ : making = true ∧ names = [] := by simpa using last
            cases walked
            exact .make rfl directory found
          · cases walked
        | some entry =>
          simp only [found] at walked
          cases entry with
          | link target =>
            cases links with
            | zero => cases walked
            | succ links => exact .link directory open_end found (leads_of_walk walked)
          | file bytes =>
            exact .enter directory open_end ⟨_, found, by simp⟩ (leads_of_walk walked)
          | directory =>
            exact .enter directory open_end ⟨_, found, by simp⟩ (leads_of_walk walked)
termination_by (links, names.length)

/-- **Steps of a path**: names are followed as `Leads` says. -/
theorem walk_eq_ok_iff :
    tree.walk making links location names = .ok place ↔
      tree.Leads making links location names place := by
  refine ⟨leads_of_walk, fun leads => ?_⟩
  induction leads with
  | done => exact walk_nil
  | @enter links location place name names directory open_end found rest ih =>
    obtain ⟨entry, found, solid⟩ := found
    rw [walk_cons_of_directory directory open_end, found]
    cases entry with
    | link target => exact absurd rfl (solid target)
    | file bytes => exact ih
    | directory => exact ih
  | link directory open_end found rest ih =>
    rw [walk_cons_of_directory directory open_end, found]
    exact ih
  | make makes directory missing =>
    rw [walk_cons_of_directory directory (by simp), missing, makes]
    rfl

/-! ### Canonical paths -/

/-- What is found leads to what exists. -/
theorem Leads.exists_place (leads : tree.Leads false links location names place)
    (found : tree.Exists location) : tree.Exists place := by
  induction leads with
  | done => exact found
  | enter _ _ next _ ih => exact ih next
  | link directory _ _ _ ih => exact ih (exists_of_isDirectory (isDirectory_start directory _))
  | make makes => cases makes

/-- The names of a location lead from the root to it, over no link, and on from it. -/
theorem leads_from_root (found : tree.Exists location)
    (leads : tree.Leads false links location names place) :
    tree.Leads false links .root (location.names.reverse ++ names) place := by
  obtain ⟨inner, proper⟩ := location
  induction inner generalizing names with
  | nil => exact leads
  | cons name outer ih =>
    have proper_name : Path.isProper name = true := by
      rw [List.all_cons, Bool.and_eq_true] at proper
      exact proper.1
    let directory : Location := Location.parent ⟨name :: outer, proper⟩
    have inside : tree.isDirectory directory = true := by
      obtain ⟨entry, listed, -⟩ := found
      exact isDirectory_parent_of_lookup? listed
    have next : directory.follow name = ⟨name :: outer, proper⟩ := by
      rw [Location.follow, dif_pos proper_name]
      rfl
    have through : tree.Leads false links directory (name :: names) place :=
      .enter inside (by simp) (next ▸ found) (next ▸ leads)
    rw [List.reverse_cons, List.append_assoc]
    exact ih _ (exists_of_isDirectory inside) through

/-- A path leads to what stands at a location. -/
structure LeadsTo (tree : FileTree) (path : String) (place : Location) : Prop where
  /-- It is not empty. -/
  solid : path ≠ ""
  /-- Its names lead there, from the root or from the working directory. -/
  leads : tree.Leads false linkLimit (tree.workingDirectory.start path) (Path.names path) place

theorem locate_eq_ok_iff : tree.locate path = .ok place ↔ tree.LeadsTo path place := by
  rw [locate, resolve]
  by_cases empty : path = ""
  · rw [if_pos (by simp [empty])]
    exact ⟨nofun, fun leadsTo => absurd empty leadsTo.solid⟩
  · rw [if_neg (by simpa using empty), walk_eq_ok_iff]
    exact ⟨fun leads => ⟨empty, leads⟩, fun leadsTo => leadsTo.leads⟩

/-- **Resolving is canonical**: what a path leads to exists, and its path from the root leads to the
same location. -/
theorem locate_path (located : tree.locate path = .ok location) :
    tree.Exists location ∧ tree.locate location.path = .ok location := by
  obtain ⟨-, leads⟩ := locate_eq_ok_iff.mp located
  have found : tree.Exists location :=
    leads.exists_place (exists_of_isDirectory
      (isDirectory_start tree.isDirectory_workingDirectory path))
  refine ⟨found, locate_eq_ok_iff.mpr ⟨by simp [Location.path], ?_⟩⟩
  have start : tree.workingDirectory.start location.path = .root := by
    rw [Location.start, if_pos]
    simp [Location.path, Path.isAbsolute]
  have stay (names : List String) (names' : tree.Leads false linkLimit .root names location) :
      tree.Leads false linkLimit .root ("" :: names) location :=
    .enter tree.isDirectory_root (by simp) (exists_of_isDirectory tree.isDirectory_root) names'
  rw [start]
  by_cases below : location.names = []
  · obtain rfl : location = .root := Location.ext_names below
    exact stay [""] (stay [] .done)
  · rw [Location.names_path below]
    have here : tree.Leads false linkLimit location [] location := .done
    have whole := leads_from_root found here
    rw [List.append_nil] at whole
    exact stay _ whole

/-! ### Files that are there or can be made -/

namespace Leads

theorem isDirectory_of_ne_nil (leads : tree.Leads making links location names place)
    (more : names ≠ []) : tree.isDirectory location = true := by
  cases leads with
  | done => exact absurd rfl more
  | enter directory => exact directory
  | link directory => exact directory
  | make _ directory => exact directory

/-- Slashes alone lead nowhere. -/
theorem eq_of_all_isEmpty (leads : tree.Leads making links location names place)
    (empty : names.all String.isEmpty = true) : place = location := by
  induction leads with
  | done => rfl
  | @enter links location place name names directory open_end found rest ih =>
    obtain ⟨rfl, empty⟩ : name = "" ∧ names.all String.isEmpty = true := by simpa using empty
    exact ih empty
  | @link links location place name target names directory open_end found rest ih =>
    obtain ⟨rfl, -⟩ : name = "" ∧ names.all String.isEmpty = true := by simpa using empty
    rw [show location.follow "" = location from rfl, lookup?_of_isDirectory directory] at found
    cases found
  | @make links location name makes directory missing =>
    obtain rfl : name = "" := by simpa using empty
    rfl

/-- What stands before a slash is a directory. -/
theorem isDirectory_of_slash {front : List String}
    (leads : tree.Leads false links location (front ++ names) place) (more : names ≠ [])
    (empty : names.all String.isEmpty = true) : tree.isDirectory place = true := by
  generalize whole : front ++ names = all at leads
  induction leads generalizing front with
  | done => exact absurd (List.append_eq_nil_iff.mp whole).2 more
  | @enter links location place name rest directory open_end found further ih =>
    cases front with
    | nil =>
      subst whole
      rw [(Leads.enter directory open_end found further).eq_of_all_isEmpty empty]
      exact directory
    | cons first front => exact ih (List.cons.inj whole).2
  | @link links location place name target rest directory open_end found further ih =>
    cases front with
    | nil =>
      subst whole
      rw [(Leads.link directory open_end found further).eq_of_all_isEmpty empty]
      exact directory
    | cons first front =>
      have behind : front ++ names = rest := (List.cons.inj whole).2
      refine @ih (Path.names target ++ front) ?_
      rw [List.append_assoc, behind]
  | make makes => cases makes

/-- A file that is found is one that can be written to: no slash follows its name. -/
theorem to_making (leads : tree.Leads false links location names place)
    (file : tree.isDirectory place = false) : tree.Leads true links location names place := by
  have open_end {front rest : List String} {links : Nat} {location place : Location}
      (further : tree.Leads false links location (front ++ rest) place)
      (file : tree.isDirectory place = false) : rest ≠ [] → rest.all String.isEmpty = false := by
    intro more
    refine Bool.eq_false_iff.mpr fun empty => ?_
    rw [further.isDirectory_of_slash more empty] at file
    cases file
  induction leads with
  | done => exact .done
  | enter directory _ found rest ih =>
    exact .enter directory (fun _ => @open_end [] _ _ _ _ rest file) found (ih file)
  | link directory _ found rest ih =>
    exact .link directory (fun _ => open_end rest file) found (ih file)
  | make makes => cases makes

/-- A file that can be written to is found if it exists. -/
theorem of_making (leads : tree.Leads true links location names place)
    (found : tree.Exists place) : tree.Leads false links location names place := by
  induction leads with
  | done => exact .done
  | enter directory _ next _ ih => exact .enter directory (by simp) next (ih found)
  | link directory _ next _ ih => exact .link directory (by simp) next (ih found)
  | make _ _ missing =>
    obtain ⟨entry, listed, -⟩ := found
    cases missing.symm.trans listed

end Leads

theorem destination_eq_ok_iff :
    tree.destination path = .ok place ↔
      path ≠ "" ∧
        tree.Leads true linkLimit (tree.workingDirectory.start path) (Path.names path) place ∧
        tree.isDirectory place = false := by
  rw [← walk_eq_ok_iff, destination, resolve]
  by_cases empty : path = ""
  · simp [empty, bind, Except.bind]
  · rw [if_neg (by simpa using empty)]
    cases tree.walk true linkLimit (tree.workingDirectory.start path) (Path.names path) with
    | error error => simp [bind, Except.bind]
    | ok location =>
      change (if tree.isDirectory location then _ else _) = Except.ok place ↔ _
      cases kind : tree.isDirectory location with
      | false =>
        rw [if_neg Bool.false_ne_true, Except.ok.injEq]
        refine ⟨fun same => ⟨empty, same, same ▸ kind⟩, fun found => found.2.1⟩
      | true =>
        rw [if_pos rfl]
        refine iff_of_false (by rintro ⟨⟩) ?_
        rintro ⟨-, same, file⟩
        obtain rfl : location = place := Except.ok.inj same
        cases kind.symm.trans file

/-- A path that is read leads to a file exactly if it is written to the same file, and that file
exists. -/
theorem locate_eq_ok_iff_destination (file : tree.isDirectory place = false) :
    tree.locate path = .ok place ↔ tree.destination path = .ok place ∧ tree.Exists place := by
  rw [locate_eq_ok_iff, destination_eq_ok_iff]
  constructor
  · rintro ⟨solid, leads⟩
    refine ⟨⟨solid, leads.to_making file, file⟩, leads.exists_place (exists_of_isDirectory ?_)⟩
    exact isDirectory_start tree.isDirectory_workingDirectory path
  · rintro ⟨⟨solid, leads, -⟩, found⟩
    exact ⟨solid, leads.of_making found⟩

end FileTree

end Asm6502
