import Asm6502.Proofs.Resolution

/-!
# What writing a file changes

A file is written where its path leads, whether it is there or not: at a location that is neither a
directory nor a link, in an existing directory (`FileTree.TakesFile`). Writing makes no directory,
so every path is written to the same place before and after (`FileTree.destination_set`). What a
path reads is what stands where it is written to, so that only those paths read something else that
lead to the file which was written (`FileTree.contents?_set_self`, `FileTree.contents?_set_of_ne`).

Two paths may lead to one file, over links only: without links, a path and a longer one with the
same directory lead to two files (`FileTree.LinkFree.destination_ne`).
-/

namespace Asm6502

namespace FileTree

variable {tree : FileTree} {location place : Location} {making : Bool} {links : Nat}
  {path : String} {names : List String} {bytes : List UInt8}

/-! ### A file in an existing directory -/

/-- A file stands at the location, or can be made there. -/
structure TakesFile (tree : FileTree) (location : Location) : Prop where
  free : tree.isDirectory location = false
  solid : ∀ target, tree.lookup? location ≠ some (.link target)
  inside : tree.isDirectory location.parent = true

/-- A name that leads from a directory to no directory leads into it. -/
theorem follow_eq_child {name : String} (directory : tree.isDirectory location = true)
    (file : tree.isDirectory (location.follow name) = false) :
    ∃ proper, location.follow name = location.child name proper := by
  obtain child | next | next := location.follow_cases name
  · exact child
  · rw [next, directory] at file
    cases file
  · rw [next, isDirectory_parent directory] at file
    cases file

/-- Names that lead to no directory lead to where a file can stand. -/
theorem Leads.takesFile (leads : tree.Leads making links location names place)
    (start : tree.isDirectory location = true ∨ tree.TakesFile location)
    (file : tree.isDirectory place = false) : tree.TakesFile place := by
  induction leads with
  | @done links location =>
    refine start.resolve_left fun directory => ?_
    cases directory.symm.trans file
  | @enter links location place name names _ _ found _ ih =>
    obtain ⟨entry, listed, solid⟩ := found
    refine ih ?_ file
    cases kind : tree.isDirectory (location.follow name) with
    | true => exact .inl rfl
    | false =>
      refine .inr ⟨kind, fun target linked => ?_, isDirectory_parent_of_lookup? listed⟩
      exact solid target (Option.some.inj (listed.symm.trans linked))
  | link directory _ _ _ ih => exact ih (.inl (isDirectory_start directory _)) file
  | @make links location name _ directory missing =>
    refine ⟨file, by simp [missing], ?_⟩
    obtain ⟨proper, next⟩ := follow_eq_child directory file
    rw [next, Location.parent_child]
    exact directory

theorem takesFile_of_destination (leads : tree.destination path = .ok location) :
    tree.TakesFile location := by
  obtain ⟨-, leads, file⟩ := destination_eq_ok_iff.mp leads
  exact leads.takesFile (.inl (isDirectory_start tree.isDirectory_workingDirectory path)) file

/-- Leaving out what stands at one location does not change what is found at another. -/
theorem lookup_filter_ne {location other : Location} (differ : other ≠ location)
    (entries : List (Location × Entry)) :
    (entries.filter (·.1 != location)).lookup other = entries.lookup other := by
  induction entries with
  | nil => rfl
  | cons listed entries ih =>
    obtain ⟨place, entry⟩ := listed
    by_cases kept : place = location
    · subst kept
      simp [List.lookup_cons, beq_false_of_ne differ, ih]
    · simp [List.lookup_cons, kept, ih]

section Set

variable (takes : tree.TakesFile location)
include takes

/-- A file that is put into an existing directory makes no directory, and removes none. -/
theorem isDirectory_set (other : Location) :
    (tree.set location bytes).isDirectory other = tree.isDirectory other := by
  rw [Bool.eq_iff_iff, isDirectory_iff]
  constructor
  · rintro (working | ⟨listed, mem, below⟩)
    · exact isDirectory_iff.mpr (.inl working)
    · obtain rfl | ⟨old, -⟩ : listed = (location, .file bytes) ∨ _ := by
        simpa [set, put] using mem
      · exact isDirectory_of_contains below takes.inside
      · exact isDirectory_iff.mpr (.inr ⟨listed, old, below⟩)
  · intro directory
    obtain working | ⟨listed, mem, below⟩ := isDirectory_iff.mp directory
    · exact .inl working
    · obtain ⟨place, entry⟩ := listed
      -- The entry that shows the directory may be the one that is replaced.
      by_cases same : place = location
      · subst same
        refine .inr ⟨(place, .file bytes), by simp [set, put], ?_⟩
        cases entry with
        | directory =>
          have listed : tree.isDirectory place = true :=
            isDirectory_iff.mpr (.inr ⟨_, mem, Location.contains_self place⟩)
          cases listed.symm.trans takes.free
        | file old => exact below
        | link target => exact below
      · exact .inr ⟨(place, entry), by simp [set, put, mem, same], below⟩

/-- Writing a location changes what stands there and nothing else. -/
theorem lookup?_set (other : Location) :
    (tree.set location bytes).lookup? other =
      if other = location then some (.file bytes) else tree.lookup? other := by
  rw [lookup?, lookup?, isDirectory_set takes]
  by_cases same : other = location
  · subst same
    simp [takes.free, set, put]
  · simp [set, put, List.lookup_cons, same, beq_false_of_ne same, lookup_filter_ne same]

theorem file?_set (other : Location) :
    (tree.set location bytes).file? other =
      if other = location then some bytes else tree.file? other := by
  rw [file?, file?, lookup?_set takes]
  by_cases same : other = location <;> simp [same]

theorem lookup?_set_link_iff {other : Location} {target : String} :
    (tree.set location bytes).lookup? other = some (.link target) ↔
      tree.lookup? other = some (.link target) := by
  rw [lookup?_set takes]
  split
  · rename_i same
    exact iff_of_false (by simp) (same ▸ takes.solid target)
  · rfl

/-- What exists still exists, and so does the file that was written. -/
theorem exists_set_iff {other : Location} :
    (tree.set location bytes).Exists other ↔ tree.Exists other ∨ other = location := by
  rw [Exists, lookup?_set takes]
  by_cases same : other = location
  · simp [same]
  · simp [same, Exists]

/-- Names lead a file that is to be made to the same place before and after. -/
theorem leads_set_iff {names : List String} {start : Location} :
    (tree.set location bytes).Leads true links start names place ↔
      tree.Leads true links start names place := by
  constructor
  · intro leads
    induction leads with
    | done => exact .done
    | @enter links start place name names directory open_end found rest ih =>
      rw [isDirectory_set takes] at directory
      obtain old | new := (exists_set_iff takes).mp found
      · exact .enter directory open_end old ih
      · -- The file that was written is the last on the way; it was there, or it was missing.
        obtain rfl : names = [] := Decidable.byContradiction fun more => by
          have inside := ih.isDirectory_of_ne_nil more
          rw [new, takes.free] at inside
          cases inside
        cases listed : tree.lookup? (start.follow name) with
        | some entry =>
          refine .enter directory open_end ⟨entry, listed, fun target linked => ?_⟩ ih
          exact takes.solid target (new ▸ linked ▸ listed)
        | none =>
          cases ih
          exact .make rfl directory listed
    | link directory open_end found rest ih =>
      rw [isDirectory_set takes] at directory
      exact .link directory open_end ((lookup?_set_link_iff takes).mp found) ih
    | @make links start name makes directory missing =>
      rw [isDirectory_set takes] at directory
      rw [lookup?_set takes] at missing
      split at missing
      · cases missing
      · exact .make makes directory missing
  · intro leads
    induction leads with
    | done => exact .done
    | enter directory open_end found rest ih =>
      rw [← isDirectory_set takes] at directory
      exact .enter directory open_end ((exists_set_iff takes).mpr (.inl found)) ih
    | link directory open_end found rest ih =>
      rw [← isDirectory_set takes] at directory
      exact .link directory open_end ((lookup?_set_link_iff takes).mpr found) ih
    | @make links start name makes directory missing =>
      rw [← isDirectory_set takes] at directory
      by_cases new : start.follow name = location
      · exact .enter directory (by simp) ((exists_set_iff takes).mpr (.inr new)) .done
      · refine .make makes directory ?_
        rw [lookup?_set takes, if_neg new, missing]

/-- A path is written to the same place before and after. -/
theorem destination_set :
    (tree.set location bytes).destination path = .ok place ↔ tree.destination path = .ok place := by
  rw [destination_eq_ok_iff, destination_eq_ok_iff, leads_set_iff takes, isDirectory_set takes]
  rfl

end Set

/-! ### What a path reads -/

/-- The contents of the file that a path names, if there is one. -/
def contents? (tree : FileTree) (path : String) : Option (List UInt8) :=
  (tree.readBytes path).toOption

/-- There is a file just where something can be read. -/
theorem exists_of_file? (found : tree.file? location = some bytes) :
    tree.Exists location ∧ tree.isDirectory location = false := by
  unfold file? at found
  split at found
  · rename_i listed
    refine ⟨⟨_, listed, by simp⟩, Bool.eq_false_iff.mpr fun directory => ?_⟩
    rw [lookup?_of_isDirectory directory] at listed
    cases listed
  · cases found

theorem contents?_eq_some_iff :
    tree.contents? path = some bytes ↔
      ∃ place, tree.destination path = .ok place ∧ tree.file? place = some bytes := by
  have located : tree.contents? path = some bytes ↔
      ∃ place, tree.locate path = .ok place ∧ tree.file? place = some bytes := by
    rw [contents?, readBytes]
    cases tree.locate path with
    | error error => simp [bind, Except.bind, Except.toOption]
    | ok place =>
      cases found : tree.file? place <;>
        simp [bind, Except.bind, Except.toOption, bytesAt, found]
  rw [located]
  refine exists_congr fun place => and_congr_left fun found => ?_
  obtain ⟨there, file⟩ := exists_of_file? found
  rw [locate_eq_ok_iff_destination file, and_iff_left there]

/-- What was written is read by the paths that lead to it. -/
theorem contents?_set_self (leads : tree.destination path = .ok location) :
    (tree.set location bytes).contents? path = some bytes := by
  have takes := takesFile_of_destination leads
  rw [contents?_eq_some_iff]
  refine ⟨location, (destination_set takes).mpr leads, ?_⟩
  rw [file?_set takes, if_pos rfl]

/-- Other paths read what they did. -/
theorem contents?_set_of_ne (takes : tree.TakesFile location)
    (elsewhere : tree.destination path ≠ .ok location) :
    (tree.set location bytes).contents? path = tree.contents? path := by
  refine Option.ext fun content => ?_
  rw [contents?_eq_some_iff, contents?_eq_some_iff]
  refine exists_congr fun place => ?_
  rw [destination_set takes, file?_set takes]
  refine and_congr_right fun leads => ?_
  rw [if_neg]
  rintro rfl
  exact elsewhere leads

/-- **What writing does**: the file cannot be opened and nothing changes, or it holds the new
contents, or the write fails on the way and it holds a beginning of them. -/
theorem write_cases (tree : FileTree) (path : String) (bytes : List UInt8) (fault : Option Fault) :
    (∃ error, tree.write path bytes fault = (tree, .error error)) ∨
      ∃ location, tree.destination path = .ok location ∧
        (tree.write path bytes fault = (tree.set location bytes, .ok ()) ∨
          ∃ count error, fault = some (.cut count error) ∧
            tree.write path bytes fault =
              (tree.set location (bytes.take count), .error error)) := by
  unfold write
  cases tree.destination path with
  | error error => exact .inl ⟨error, rfl⟩
  | ok location =>
    cases fault with
    | none => exact .inr ⟨location, rfl, .inl rfl⟩
    | some fault =>
      cases fault with
      | refused error => exact .inl ⟨error, rfl⟩
      | cut count error => exact .inr ⟨location, rfl, .inr ⟨count, error, rfl, rfl⟩⟩

end FileTree

/-! ### The names of a longer path -/

namespace Path

theorem splitOn_append_of_not_mem {separator : Char} {text more last : List Char}
    {outer : List (List Char)} (free : separator ∉ more)
    (split : text.splitOn separator = outer ++ [last]) :
    (text ++ more).splitOn separator = outer ++ [last ++ more] := by
  induction text generalizing outer last with
  | nil =>
    obtain ⟨rfl, rfl⟩ : outer = [] ∧ last = [] := by
      cases outer <;> simp_all
    simpa using List.splitOn_eq_singleton free
  | cons c text ih =>
    obtain ⟨front, back, parts⟩ : ∃ front back, text.splitOn separator = front ++ [back] :=
      ⟨_, _, (List.dropLast_concat_getLast (List.splitOn_ne_nil separator text)).symm⟩
    rw [List.splitOn_cons_eq_if_modifyHead, parts] at split
    rw [List.cons_append, List.splitOn_cons_eq_if_modifyHead, ih parts]
    by_cases ends : (c == separator) = true
    · rw [if_pos ends, ← List.cons_append] at split
      obtain ⟨rfl, same⟩ := List.append_inj' split rfl
      obtain rfl : back = last := by simpa using same
      rw [if_pos ends, List.cons_append]
    · rw [if_neg ends] at split ⊢
      -- The character goes to the first part, which is the last one if there is no other.
      cases front with
      | nil =>
        have whole : [] ++ [c :: back] = outer ++ [last] := split
        obtain ⟨rfl, same⟩ := List.append_inj' whole rfl
        obtain rfl : c :: back = last := by simpa using same
        rfl
      | cons first front =>
        have whole : ((c :: first) :: front) ++ [back] = outer ++ [last] := split
        obtain ⟨rfl, same⟩ := List.append_inj' whole rfl
        obtain rfl : back = last := by simpa using same
        rfl

/-- What is put behind a path and has no slash goes to the last name. -/
theorem names_append {path more last : String} {outer : List String} (free : '/' ∉ more.toList)
    (split : names path = outer ++ [last]) : names (path ++ more) = outer ++ [last ++ more] := by
  obtain ⟨front, back, parts, rfl, ends⟩ := List.map_eq_append_iff.mp split
  obtain ⟨text, rest, rfl, rfl, none⟩ := List.map_eq_cons_iff.mp ends
  obtain rfl := List.map_eq_nil_iff.mp none
  rw [names, String.toList_append, splitOn_append_of_not_mem free parts]
  simp [String.ofList_append]

theorem isAbsolute_append {path : String} (more : String) (solid : path ≠ "") :
    isAbsolute (path ++ more) = isAbsolute path := by
  have some_name : path.toList ≠ [] := fun none => solid (String.toList_eq_nil_iff.mp none)
  obtain ⟨first, rest, chars⟩ := List.exists_cons_of_ne_nil some_name
  rw [isAbsolute, isAbsolute, String.toList_append, chars]
  rfl

end Path

namespace FileTree

variable {tree : FileTree} {location place : Location} {making : Bool} {links : Nat}
  {names : List String}

/-! ### Trees without links -/

/-- The entry is a link. -/
def Entry.isLink : Entry → Bool
  | .link _ => true
  | _ => false

/-- The tree has no link. -/
def LinkFree (tree : FileTree) : Prop := ∀ listed ∈ tree.entries, listed.2.isLink = false

instance (tree : FileTree) : Decidable tree.LinkFree :=
  inferInstanceAs (Decidable (∀ listed ∈ tree.entries, listed.2.isLink = false))

namespace LinkFree

theorem lookup?_ne (free : tree.LinkFree) (location : Location) (target : String) :
    tree.lookup? location ≠ some (.link target) := by
  intro found
  cases kind : tree.isDirectory location with
  | true =>
    rw [lookup?_of_isDirectory kind] at found
    cases found
  | false => cases free _ (mem_entries_of_lookup? found kind)

/-- Without links, names lead where they say; the last one is looked up in a directory. -/
theorem eq_foldl (free : tree.LinkFree) {last : String}
    (leads : tree.Leads making links location (names ++ [last]) place) :
    place = (names.foldl Location.follow location).follow last ∧
      tree.isDirectory (names.foldl Location.follow location) = true := by
  induction names generalizing location with
  | nil =>
    refine ⟨?_, leads.isDirectory_of_ne_nil (by simp)⟩
    cases leads with
    | enter _ _ _ rest =>
      cases rest
      rfl
    | link _ _ found => exact absurd found (free.lookup?_ne _ _)
    | make => rfl
  | cons name names ih =>
    rw [List.cons_append] at leads
    generalize more : names ++ [last] = rest at leads
    cases leads with
    | enter _ _ _ rest => exact ih (more ▸ rest)
    | link _ _ found => exact absurd found (free.lookup?_ne _ _)
    | make => simp at more

/-- Without links, a path and a longer one with the same directory lead to two files. -/
theorem destination_ne (free : tree.LinkFree) {path more : String} {other : Location}
    (unbroken : '/' ∉ more.toList) (longer : more ≠ "")
    (leads : tree.destination path = .ok place)
    (leads' : tree.destination (path ++ more) = .ok other) : place ≠ other := by
  obtain ⟨outer, last, named⟩ : ∃ outer last, Path.names path = outer ++ [last] :=
    ⟨_, _, (List.dropLast_concat_getLast (by simp [Path.names])).symm⟩
  obtain ⟨solid, leads, file⟩ := destination_eq_ok_iff.mp leads
  obtain ⟨-, leads', file'⟩ := destination_eq_ok_iff.mp leads'
  rw [Path.names_append unbroken named, Location.start, Path.isAbsolute_append more solid,
    ← Location.start] at leads'
  rw [named] at leads
  obtain ⟨rfl, inside⟩ := free.eq_foldl leads
  obtain ⟨rfl, -⟩ := free.eq_foldl leads'
  generalize List.foldl Location.follow (tree.workingDirectory.start path) outer = directory at *
  obtain ⟨proper, next⟩ := follow_eq_child inside file
  obtain ⟨proper', next'⟩ := follow_eq_child inside file'
  rw [next, next']
  intro same
  have names : last = last ++ more := (List.cons.inj (congrArg Location.names same)).1
  have lengths := congrArg String.length names
  rw [String.length_append] at lengths
  have empty : more.length = 0 := by omega
  exact longer (String.length_eq_zero_iff.mp empty)

end LinkFree

end FileTree

end Asm6502
