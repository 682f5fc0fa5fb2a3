import Asm6502.Proofs.Listed
import Asm6502.Proofs.Writing

/-!
# What a build leaves behind

A build reads its source file, assembles the text, prints the listing and writes the object file and
the dictionary. Each step may fail: the listing may not be printed, and a file may not be opened, or
may be left with a beginning of what was to be written. `Wrote` says all that can come of writing
the files of a program, and `Comes` all that can come of a build (`comes_run`).

Nothing is written unless the text can be read, the listing is printed and there are no errors, and
nothing is written but the two files (`Build.run_writes`). A listing that can be printed adds
nothing to what is written. It can still make a build fail, as the numbers that listing directives
are given are looked at only for a listing (`Build.run_listed`). The object file and the dictionary
are written one after the other, and none is taken back or removed, so they belong together only if
both can be written in full and no earlier dictionary is left over (`Build.run_keeps_together`).
-/

namespace Asm6502.Build

/-! ### The files of a program -/

/-- The contents of the dictionary of a program. -/
def dictionaryBytes (artifact : Artifact) : List UInt8 :=
  textBytes (Dictionary.ofArtifact artifact).render

theorem filesOf_eq (output : String) (artifact : Artifact) :
    filesOf output artifact =
      (output, artifact.bytes) ::
        if artifact.relocatable then [(output ++ ".rld", dictionaryBytes artifact)] else [] := rfl

/-- The object file and the dictionary are one file. -/
def OneFile (tree : FileTree) (output : String) : Prop :=
  ∃ place, tree.destination output = .ok place ∧
    tree.destination (output ++ ".rld") = .ok place

/-- Only links make them one file. -/
theorem not_oneFile_of_linkFree {tree : FileTree} (free : tree.LinkFree) (output : String) :
    ¬OneFile tree output := by
  rintro ⟨place, object, dictionary⟩
  exact free.destination_ne (by decide) (by decide) object dictionary rfl

/-- All that can come of writing the files of a program. -/
inductive Wrote (faults : Faults) (tree : FileTree) (output : String) (artifact : Artifact) :
    FileTree → Except Failure Unit → Prop
  /-- The object file cannot be opened. -/
  | objectRefused {error : FileError} :
      Wrote faults tree output artifact tree (.error (.output (.file output) error))
  /-- The object file cannot be written in full. -/
  | objectCut {object : Location} {count : Nat} {error : FileError}
      (leads : tree.destination output = .ok object)
      (fault : faults (.file output) = some (.cut count error)) :
      Wrote faults tree output artifact (tree.set object (artifact.bytes.take count))
        (.error (.output (.file output) error))
  /-- The program is absolute, and the object file is written. -/
  | absolute {object : Location} (leads : tree.destination output = .ok object)
      (kind : artifact.relocatable = false) :
      Wrote faults tree output artifact (tree.set object artifact.bytes) (.ok ())
  /-- The object file is written, and the dictionary cannot be opened. -/
  | dictionaryRefused {object : Location} {error : FileError}
      (leads : tree.destination output = .ok object) (kind : artifact.relocatable = true) :
      Wrote faults tree output artifact (tree.set object artifact.bytes)
        (.error (.output (.file (output ++ ".rld")) error))
  /-- The object file is written, and the dictionary cannot be written in full. -/
  | dictionaryCut {object place : Location} {count : Nat} {error : FileError}
      (leads : tree.destination output = .ok object) (kind : artifact.relocatable = true)
      (beside : tree.destination (output ++ ".rld") = .ok place)
      (fault : faults (.file (output ++ ".rld")) = some (.cut count error)) :
      Wrote faults tree output artifact
        ((tree.set object artifact.bytes).set place ((dictionaryBytes artifact).take count))
        (.error (.output (.file (output ++ ".rld")) error))
  /-- Both files are written. -/
  | relocatable {object place : Location} (leads : tree.destination output = .ok object)
      (kind : artifact.relocatable = true)
      (beside : tree.destination (output ++ ".rld") = .ok place) :
      Wrote faults tree output artifact
        ((tree.set object artifact.bytes).set place (dictionaryBytes artifact)) (.ok ())

section Files

variable {faults : Faults} {tree after : FileTree} {output : String} {artifact : Artifact}

/-- Writing the files of a program does one of these things. -/
theorem wrote_writeAll (faults : Faults) (tree : FileTree) (output : String)
    (artifact : Artifact) :
    Wrote faults tree output artifact (writeAll faults tree (filesOf output artifact)).1
      (writeAll faults tree (filesOf output artifact)).2 := by
  rw [filesOf_eq, writeAll]
  obtain ⟨error, wrote⟩ | ⟨object, leads, wrote | ⟨count, error, fault, wrote⟩⟩ :=
    tree.write_cases output artifact.bytes (faults (.file output))
  · rw [wrote]
    exact .objectRefused
  · rw [wrote]
    cases kind : artifact.relocatable with
    | false => exact .absolute leads kind
    | true =>
      -- The dictionary goes where it would have gone before the object file was written.
      have takes := FileTree.takesFile_of_destination leads
      simp only [if_true, writeAll]
      obtain ⟨error, wrote'⟩ | ⟨place, beside, wrote' | ⟨count, error, fault, wrote'⟩⟩ :=
        (tree.set object artifact.bytes).write_cases (output ++ ".rld")
          (dictionaryBytes artifact) (faults (.file (output ++ ".rld")))
      · rw [wrote']
        exact .dictionaryRefused leads kind
      · rw [wrote']
        exact .relocatable leads kind ((FileTree.destination_set takes).mp beside)
      · rw [wrote']
        exact .dictionaryCut leads kind ((FileTree.destination_set takes).mp beside) fault
  · rw [wrote]
    exact .objectCut leads fault

/-- The program is written: the object file holds its bytes, the dictionary holds its linkage data
if it is relocatable and is as before if not, and everything else is as before. If both are one
file, that file holds what was written last. -/
structure Written (output : String) (artifact : Artifact) (before after : FileTree) : Prop where
  object : (artifact.relocatable = true → ¬OneFile before output) →
    after.contents? output = some artifact.bytes
  dictionary : artifact.relocatable = true →
    after.contents? (output ++ ".rld") = some (dictionaryBytes artifact)
  untouched : artifact.relocatable = false → ¬OneFile before output →
    after.contents? (output ++ ".rld") = before.contents? (output ++ ".rld")
  others : ∀ location, before.destination output ≠ .ok location →
    (artifact.relocatable = true → before.destination (output ++ ".rld") ≠ .ok location) →
    after.lookup? location = before.lookup? location

section OneFile

variable {object place : Location} {bytes bytes' : List UInt8}

theorem destination_ne_of_not_oneFile (apart : ¬OneFile tree output)
    (leads : tree.destination output = .ok object) :
    tree.destination (output ++ ".rld") ≠ .ok object :=
  fun beside => apart ⟨object, leads, beside⟩

/-- Writing the object file leaves the dictionary as it is. -/
theorem contents?_dictionary_set (apart : ¬OneFile tree output)
    (leads : tree.destination output = .ok object) :
    (tree.set object bytes).contents? (output ++ ".rld") =
      tree.contents? (output ++ ".rld") :=
  FileTree.contents?_set_of_ne (FileTree.takesFile_of_destination leads)
    (destination_ne_of_not_oneFile apart leads)

/-- The dictionary goes to the same place after the object file was written. -/
theorem destination_dictionary_set (leads : tree.destination output = .ok object)
    (beside : tree.destination (output ++ ".rld") = .ok place) :
    (tree.set object bytes).destination (output ++ ".rld") = .ok place :=
  (FileTree.destination_set (FileTree.takesFile_of_destination leads)).mpr beside

theorem takesFile_set (leads : tree.destination output = .ok object)
    (beside : tree.destination (output ++ ".rld") = .ok place) :
    (tree.set object bytes).TakesFile place :=
  FileTree.takesFile_of_destination (destination_dictionary_set leads beside)

/-- Writing the dictionary leaves the object file as it was written. -/
theorem contents?_object_set_set (apart : ¬OneFile tree output)
    (leads : tree.destination output = .ok object)
    (beside : tree.destination (output ++ ".rld") = .ok place) :
    ((tree.set object bytes).set place bytes').contents? output = some bytes := by
  rw [FileTree.contents?_set_of_ne (takesFile_set leads beside)]
  · exact FileTree.contents?_set_self leads
  · rw [Ne, FileTree.destination_set (FileTree.takesFile_of_destination leads)]
    exact fun same => apart ⟨place, same, beside⟩

theorem contents?_dictionary_set_set (leads : tree.destination output = .ok object)
    (beside : tree.destination (output ++ ".rld") = .ok place) :
    ((tree.set object bytes).set place bytes').contents? (output ++ ".rld") = some bytes' :=
  FileTree.contents?_set_self (destination_dictionary_set leads beside)

end OneFile

/-- If nothing fails, the program is written. -/
theorem Wrote.written (wrote : Wrote faults tree output artifact after (.ok ())) :
    Written output artifact tree after := by
  cases wrote with
  | @absolute object leads kind =>
    have takes := FileTree.takesFile_of_destination leads
    refine ⟨fun _ => FileTree.contents?_set_self leads, fun kind' => ?_,
      fun _ apart => contents?_dictionary_set apart leads, fun location elsewhere _ => ?_⟩
    · cases kind.symm.trans kind'
    · rw [FileTree.lookup?_set takes, if_neg]
      rintro rfl
      exact elsewhere leads
  | @relocatable object place leads kind beside =>
    refine ⟨fun apart => contents?_object_set_set (apart kind) leads beside,
      fun _ => contents?_dictionary_set_set leads beside, fun kind' => ?_,
      fun location not_object not_dictionary => ?_⟩
    · cases kind.symm.trans kind'
    · rw [FileTree.lookup?_set (takesFile_set leads beside), if_neg, FileTree.lookup?_set
        (FileTree.takesFile_of_destination leads), if_neg]
      · rintro rfl
        exact not_object leads
      · rintro rfl
        exact not_dictionary kind beside

end Files

/-! ### All that a build can do -/

/-- The directory in which included files are looked for: the one that the request gives, or else
the directory of the source file. -/
inductive LooksIn (request : Request) : String → Prop
  /-- The request gives a directory. -/
  | given {directory : String} (given : request.includeDirectory = some directory) :
      LooksIn request directory
  /-- The path of the source file has a directory. -/
  | beside (none : request.includeDirectory = none) (named : Path.directory request.input ≠ "") :
      LooksIn request (Path.directory request.input)
  /-- The source file is in the working directory. -/
  | here (none : request.includeDirectory = none) (bare : Path.directory request.input = "") :
      LooksIn request "."

/-- The source file can be read as UTF-8 text, and this is the artifact of its text. The source file
counts as being included. -/
def Yields (tree : FileTree) (request : Request) (artifact : Artifact) : Prop :=
  ∃ location bytes source base, tree.LeadsTo request.input location ∧
    tree.unreadable.lookup location = none ∧ tree.file? location = some bytes ∧
    String.fromUTF8? bytes.toByteArray = some source ∧ LooksIn request base ∧
    artifact = assemble request.options { tree, base, branch := [location] } source

/-- The listing can be printed, if one is asked for. -/
def Printable (request : Request) (faults : Faults) : Prop :=
  request.options.listing = true → faults .console = none

section Run

variable {tree : FileTree} {request : Request} {faults : Faults} {location : Location}
  {source : String}

theorem textAt_eq_ok_iff :
    tree.textAt location = .ok source ↔
      tree.unreadable.lookup location = none ∧
        ∃ bytes, tree.file? location = some bytes ∧
          String.fromUTF8? bytes.toByteArray = some source := by
  cases refused : tree.unreadable.lookup location with
  | some error => simp [FileTree.textAt, refused]
  | none =>
    cases found : tree.file? location with
    | none => simp [FileTree.textAt, refused, FileTree.bytesAt, found, bind, Except.bind]
    | some bytes =>
      cases decoded : String.fromUTF8? bytes.toByteArray <;>
        simp [FileTree.textAt, refused, FileTree.bytesAt, found, decoded, bind, Except.bind]

theorem looksIn_iff {base : String} : LooksIn request base ↔ base = baseOf request := by
  unfold baseOf
  constructor
  · intro looks
    cases looks with
    | given given => rw [given]
    | beside none named => simp [none, named]
    | here none bare => simp [none, bare]
  · rintro rfl
    cases given : request.includeDirectory with
    | some directory => exact .given given
    | none =>
      by_cases bare : Path.directory request.input = ""
      · simpa [bare] using LooksIn.here given bare
      · simpa [bare] using LooksIn.beside given bare

theorem yields_iff {artifact : Artifact} :
    Yields tree request artifact ↔
      ∃ location source, readInput tree request = .ok (location, source) ∧
        artifact = artifactOf tree request location source := by
  simp only [readInput_eq_ok_iff, textAt_eq_ok_iff, FileTree.locate_eq_ok_iff, looksIn_iff, Yields,
    artifactOf]
  constructor
  · rintro ⟨location, bytes, source, base, leads, open_, found, decoded, rfl, rfl⟩
    exact ⟨location, source, ⟨leads, open_, bytes, found, decoded⟩, rfl⟩
  · rintro ⟨location, source, ⟨leads, open_, bytes, found, decoded⟩, rfl⟩
    exact ⟨location, bytes, source, _, leads, open_, found, decoded, rfl, rfl⟩

/-- There is a listing if one is asked for. -/
theorem isSome_listing_artifactOf (tree : FileTree) (request : Request) (location : Location)
    (source : String) :
    (artifactOf tree request location source).listing.isSome = request.options.listing := by
  simp only [artifactOf, assemble, Assembly.run]
  split
  · rename_i asked
    rw [asked, Option.isSome_some]
  · rename_i not_asked
    rw [Option.isSome_none, Bool.eq_false_iff.mpr not_asked]

theorem print_of_printable (printable : Printable request faults) (tree : FileTree)
    (location : Location) (source : String) :
    ∃ printed, print faults (artifactOf tree request location source).listing =
      (printed, .ok ()) := by
  have asked := isSome_listing_artifactOf tree request location source
  cases shown : (artifactOf tree request location source).listing with
  | none => exact ⟨"", rfl⟩
  | some listing =>
    rw [shown] at asked
    exact ⟨listing, by rw [print, printable asked.symm]⟩

theorem run_of_unreadable {error : FileError} (unread : readInput tree request = .error error) :
    run tree request faults = { tree, result := .error (.input request.input error) } := by
  simp only [run, plan, unread, print]

theorem run_of_unprintable {fault : Fault} (read : readInput tree request = .ok (location, source))
    (asked : request.options.listing = true) (unprintable : faults .console = some fault) :
    (run tree request faults).tree = tree ∧
      (run tree request faults).result = .error (.output .console fault.error) := by
  have shown := (isSome_listing_artifactOf tree request location source).trans asked
  obtain ⟨listing, listed⟩ := Option.isSome_iff_exists.mp shown
  constructor <;> simp only [run, plan, read, listed, print, unprintable]

theorem run_of_errors (read : readInput tree request = .ok (location, source))
    (printable : Printable request faults)
    (wrong : (artifactOf tree request location source).errors ≠ []) :
    (run tree request faults).tree = tree ∧
      (run tree request faults).result =
        .error (.errors request.input (artifactOf tree request location source).errors.length) := by
  have some_error := List.isEmpty_eq_false_iff.mpr wrong
  obtain ⟨printed, shown⟩ := print_of_printable printable tree location source
  constructor <;> simp only [run, plan, read, shown, some_error, Bool.false_eq_true, if_false]

theorem run_of_no_errors (read : readInput tree request = .ok (location, source))
    (printable : Printable request faults)
    (right : (artifactOf tree request location source).errors = []) :
    writeAll faults tree (filesOf request.output (artifactOf tree request location source)) =
      ((run tree request faults).tree, (run tree request faults).result) := by
  obtain ⟨printed, shown⟩ := print_of_printable printable tree location source
  simp only [run, plan, read, shown, right, List.isEmpty_nil, if_true]

/-- All that can come of a build. -/
inductive Comes (tree : FileTree) (request : Request) (faults : Faults) :
    FileTree → Except Failure Unit → Prop
  /-- The source file cannot be read. -/
  | unreadable {error : FileError} (unread : ∀ artifact, ¬Yields tree request artifact) :
      Comes tree request faults tree (.error (.input request.input error))
  /-- The listing cannot be printed. -/
  | unprintable {artifact : Artifact} {fault : Fault} (yields : Yields tree request artifact)
      (asked : request.options.listing = true) (found : faults .console = some fault) :
      Comes tree request faults tree (.error (.output .console fault.error))
  /-- The program has errors. -/
  | wrong {artifact : Artifact} (yields : Yields tree request artifact)
      (printable : Printable request faults) (wrong : artifact.errors ≠ []) :
      Comes tree request faults tree (.error (.errors request.input artifact.errors.length))
  /-- The files of the program are written, as far as they can be. -/
  | wrote {artifact : Artifact} {after : FileTree} {result : Except Failure Unit}
      (yields : Yields tree request artifact) (printable : Printable request faults)
      (right : artifact.errors = [])
      (wrote : Wrote faults tree request.output artifact after result) :
      Comes tree request faults after result

theorem comes_run (tree : FileTree) (request : Request) (faults : Faults) :
    Comes tree request faults (run tree request faults).tree (run tree request faults).result := by
  cases read : readInput tree request with
  | error error =>
    rw [run_of_unreadable read]
    refine .unreadable fun artifact yields => ?_
    obtain ⟨location, source, read', -⟩ := yields_iff.mp yields
    cases read.symm.trans read'
  | ok file =>
    obtain ⟨location, source⟩ := file
    have yields := yields_iff.mpr ⟨location, source, read, rfl⟩
    by_cases printable : Printable request faults
    · by_cases right : (artifactOf tree request location source).errors = []
      · have wrote := wrote_writeAll faults tree request.output
          (artifactOf tree request location source)
        rw [run_of_no_errors read printable right] at wrote
        exact .wrote yields printable right wrote
      · obtain ⟨kept, failed⟩ := run_of_errors read printable right
        rw [kept, failed]
        exact .wrong yields printable right
    · obtain ⟨asked, unprintable⟩ := Classical.not_imp.mp printable
      obtain ⟨fault, unprintable⟩ := Option.ne_none_iff_exists'.mp unprintable
      obtain ⟨kept, failed⟩ := run_of_unprintable read asked unprintable
      rw [kept, failed]
      exact .unprintable yields asked unprintable

/-- Files change only by being written. -/
theorem Comes.eq_tree {after : FileTree} {failure : Failure}
    (comes : Comes tree request faults after (.error failure))
    (unwritten : ∀ path error, failure ≠ .output (.file path) error) : after = tree := by
  cases comes with
  | unreadable | unprintable | wrong => rfl
  | wrote _ _ _ wrote =>
    cases wrote with
    | objectRefused | objectCut | dictionaryRefused | dictionaryCut =>
      exact absurd rfl (unwritten _ _)

theorem Comes.of_errors {after : FileTree} {path : String} {count : Nat}
    (comes : Comes tree request faults after (.error (.errors path count))) :
    path = request.input ∧ 0 < count ∧ Printable request faults ∧
      ∃ artifact, Yields tree request artifact ∧ artifact.errors.length = count := by
  cases comes with
  | wrong yields printable wrong =>
    exact ⟨rfl, List.length_pos_iff.mpr wrong, printable, _, yields, rfl⟩
  | wrote _ _ _ wrote => cases wrote

theorem Comes.of_console {after : FileTree} {error : FileError}
    (comes : Comes tree request faults after (.error (.output .console error))) :
    request.options.listing = true ∧ (∃ artifact, Yields tree request artifact) ∧
      ∃ fault, faults .console = some fault ∧ fault.error = error := by
  cases comes with
  | unprintable yields asked found => exact ⟨asked, ⟨_, yields⟩, _, found, rfl⟩
  | wrote _ _ _ wrote => cases wrote

theorem Comes.exists_written {after : FileTree} (comes : Comes tree request faults after (.ok ())) :
    ∃ artifact, Yields tree request artifact ∧ artifact.errors = [] ∧
      Written request.output artifact tree after := by
  cases comes with
  | wrote yields printable right wrote => exact ⟨_, yields, right, wrote.written⟩

end Run

/-- A relocatable program in two files. -/
def twoParts : FileTree := .ofFiles [
  ("src/a.s", textBytes " REL\n INCLUDE b.s\n"), ("src/b.s", textBytes "MAIN JMP MAIN\n")]

/-- A program with an error whose listing cannot be printed fails for the listing. -/
example :
    let tree : FileTree := .ofFiles [("a.s", textBytes " FROB\n")]
    let request : Request := { input := "a.s", output := "a.o", options := { listing := true } }
    let closed : FileError := .system "Broken pipe (os error 32)"
    (run tree request fun _ => some (.refused closed)).result = .error (.output .console closed) ∧
      (run tree request).result = .error (.errors "a.s" 1) := by
  decide +kernel

/-! ### Builds with a listing -/

section Listing

/-- The request, with a listing or without one. -/
def Request.listed (request : Request) (listing : Bool) : Request :=
  { request with options := { request.options with listing } }

/-- The faults that only a build with a listing finds: those of the numbers that listing directives
are given. -/
def listingFaults (tree : FileTree) (request : Request) : List Diagnostic :=
  match readInput tree request with
  | .error _ => []
  | .ok (location, source) =>
    countFaults request.options { tree, base := baseOf request, branch := [location] } source

theorem errors_listed (options : Options) (setting : Setting) (source : String) :
    (assemble { options with listing := true } setting source).errors.Perm
      ((assemble { options with listing := false } setting source).errors ++
        countFaults options setting source) := by
  have only_errors : (countFaults options setting source).filter (·.isError) =
      countFaults options setting source :=
    List.filter_eq_self.mpr fun _ fault => (Assembly.mem_countFaults fault).1
  have added := (assemble_diagnostics_listed options setting source).2.filter (·.isError)
  rw [List.filter_append, only_errors] at added
  exact added

theorem filesOf_congr {first second : Artifact} (same : first.SameProgram second)
    (output : String) : filesOf output first = filesOf output second := by
  simp only [filesOf_eq, dictionaryBytes, Dictionary.ofArtifact, same.bytes, same.symbols,
    same.relocatable, same.relocations, same.externals, same.entries]

variable {tree : FileTree} {request : Request} {faults : Faults}

theorem artifactOf_listed {location : Location} {source : String}
    (read : readInput tree request = .ok (location, source)) :
    (artifactOf tree (request.listed true) location source).SameProgram
        (artifactOf tree (request.listed false) location source) ∧
      (artifactOf tree (request.listed true) location source).errors.Perm
        ((artifactOf tree (request.listed false) location source).errors ++
          listingFaults tree request) := by
  rw [listingFaults, read]
  exact ⟨assemble_sameProgram_listed _ _ _, errors_listed _ _ _⟩

/-- A build with a listing fails at the faults of listing directives and writes nothing. -/
theorem run_listed_of_faults (printable : faults .console = none)
    (some_fault : listingFaults tree request ≠ []) :
    (run tree (request.listed true) faults).tree = tree ∧
      ∃ count, 0 < count ∧
        (run tree (request.listed true) faults).result = .error (.errors request.input count) := by
  cases read : readInput tree request with
  | error error =>
    rw [listingFaults, read] at some_fault
    exact absurd rfl some_fault
  | ok file =>
    have wrong : (artifactOf tree (request.listed true) file.1 file.2).errors ≠ [] := by
      intro right
      have added := (artifactOf_listed read).2
      rw [right] at added
      exact some_fault (List.append_eq_nil_iff.mp added.symm.eq_nil).2
    have read' : readInput tree (request.listed true) = .ok (file.1, file.2) := read
    obtain ⟨kept, failed⟩ := run_of_errors read' (fun _ => printable) wrong
    exact ⟨kept, _, List.length_pos_iff.mpr wrong, failed⟩

/-- Without such faults, a build with a listing does the same as one without. -/
theorem run_listed_of_no_faults (printable : faults .console = none)
    (none : listingFaults tree request = []) :
    (run tree (request.listed true) faults).tree = (run tree (request.listed false) faults).tree ∧
      (run tree (request.listed true) faults).result =
        (run tree (request.listed false) faults).result := by
  cases read : readInput tree request with
  | error error =>
    have unread : ∀ listing, readInput tree (request.listed listing) = .error error := fun _ => read
    rw [run_of_unreadable (unread true), run_of_unreadable (unread false)]
    exact ⟨rfl, rfl⟩
  | ok file =>
    have read' : ∀ listing, readInput tree (request.listed listing) = .ok (file.1, file.2) :=
      fun _ => read
    obtain ⟨same, added⟩ := artifactOf_listed read
    rw [none, List.append_nil] at added
    by_cases right : (artifactOf tree (request.listed false) file.1 file.2).errors = []
    · rw [right] at added
      have same_files : filesOf (request.listed true).output _ =
          filesOf (request.listed false).output _ := filesOf_congr same request.output
      have wrote := run_of_no_errors (read' true) (fun _ => printable) added.eq_nil
      rw [same_files, run_of_no_errors (read' false) (fun _ => printable) right] at wrote
      exact Prod.mk.inj wrote.symm
    · have wrong : (artifactOf tree (request.listed true) file.1 file.2).errors ≠ [] := by
        intro right'
        rw [right'] at added
        exact right added.symm.eq_nil
      obtain ⟨kept, failed⟩ := run_of_errors (read' true) (fun _ => printable) wrong
      obtain ⟨kept', failed'⟩ := run_of_errors (read' false) (fun _ => printable) right
      rw [kept, kept', failed, failed', added.length_eq]
      exact ⟨rfl, rfl⟩

end Listing

/-- What can be read from the object file and from the dictionary is the same in both trees. -/
structure SameFiles (output : String) (first second : FileTree) : Prop where
  object : first.contents? output = second.contents? output
  dictionary : first.contents? (output ++ ".rld") = second.contents? (output ++ ".rld")

/-- The builds succeed or fail alike, and leave the same in the object file and in the
dictionary. -/
structure SameOutcome (output : String) (first second : Outcome) : Prop where
  result : first.result = .ok () ↔ second.result = .ok ()
  files : SameFiles output first.tree second.tree

/-- **A listing that can be printed changes a build only by the faults of listing directives**,
also if files cannot be written. If the numbers that these are given have no faults, a build does
the same with a listing and without one. If they have, the build with a listing fails and writes
nothing. So the outcome is the same just if there are no such faults, or the build without a listing
fails as well and leaves its files as they were. -/
theorem run_listed (tree : FileTree) (request : Request) (faults : Faults)
    (printable : faults .console = none) :
    let listed := run tree (request.listed true) faults
    let plain := run tree (request.listed false) faults
    (listingFaults tree request = [] → listed.tree = plain.tree ∧ listed.result = plain.result) ∧
      (listingFaults tree request ≠ [] → listed.tree = tree ∧
        ∃ count, 0 < count ∧ listed.result = .error (.errors request.input count)) ∧
      (SameOutcome request.output listed plain ↔
        listingFaults tree request = [] ∨
          plain.result ≠ .ok () ∧ SameFiles request.output tree plain.tree) := by
  intro listed plain
  refine ⟨run_listed_of_no_faults printable, run_listed_of_faults printable, ?_⟩
  by_cases none : listingFaults tree request = []
  · obtain ⟨same_tree, same_result⟩ := run_listed_of_no_faults printable none
    refine iff_of_true ⟨?_, ?_⟩ (.inl none)
    · rw [same_result]
    · rw [same_tree]
      exact ⟨rfl, rfl⟩
  · obtain ⟨kept, count, -, failed⟩ := run_listed_of_faults printable none
    have not_ok : listed.result ≠ .ok () := by
      rw [failed]
      rintro ⟨⟩
    rw [or_iff_right none, ← kept]
    constructor
    · intro same
      exact ⟨fun ok => not_ok (same.result.mpr ok), same.files⟩
    · rintro ⟨not_ok', same⟩
      exact ⟨iff_of_false not_ok not_ok', same⟩

/-- A program that skips as many lines in the listing as a name says that has no definition. -/
def undefinedSkip : FileTree := .ofFiles [("a.s", textBytes " SKP NOWHERE\n NOP\n")]

theorem run_listed_undefinedSkip :
    let request : Request := { input := "a.s", output := "a.o" }
    listingFaults undefinedSkip request ≠ [] ∧
      ∃ count, 0 < count ∧
        (run undefinedSkip (request.listed true)).result = .error (.errors "a.s" count) := by
  intro request
  have some_fault : listingFaults undefinedSkip request ≠ [] := by decide +kernel
  exact ⟨some_fault, ((run_listed undefinedSkip request (fun _ => none) rfl).2.1 some_fault).2⟩

theorem listing_fails_undefinedSkip :
    let request : Request := { input := "a.s", output := "a.o" }
    let listed := run undefinedSkip (request.listed true)
    let plain := run undefinedSkip (request.listed false)
    (plain.result = .ok () ∧ plain.tree.readBytes "a.o" = .ok [0xEA]) ∧
      (listed.result = .error (.errors "a.s" 1) ∧
        listed.tree.readBytes "a.o" = .error .notFound) ∧
      ¬SameOutcome "a.o" listed plain := by
  intro request listed plain
  have succeeds : plain.result = .ok () ∧ plain.tree.readBytes "a.o" = .ok [0xEA] := by
    decide +kernel
  have fails : listed.result = .error (.errors "a.s" 1) ∧
      listed.tree.readBytes "a.o" = .error .notFound := by
    decide +kernel
  refine ⟨succeeds, fails, fun same => ?_⟩
  cases fails.1.symm.trans (same.result.mpr succeeds.1)

/-! ### The object file and its dictionary -/

/-- The tree holds the files of a program: the object file has its bytes, and the dictionary has its
linkage data if it is relocatable and does not exist if it is not. -/
structure Holds (output : String) (artifact : Artifact) (tree : FileTree) : Prop where
  object : tree.contents? output = some artifact.bytes
  dictionary : tree.contents? (output ++ ".rld") =
    if artifact.relocatable then some (dictionaryBytes artifact) else none

/-- The object file and the dictionary belong together after a build: both are as before, or both
are those of the program. -/
def StaysTogether (tree : FileTree) (request : Request) (after : FileTree) : Prop :=
  SameFiles request.output tree after ∨
    ∃ artifact, Yields tree request artifact ∧ Holds request.output artifact after

/-- How a build may leave the two files of a program that do not belong together. -/
inductive LeftApart (faults : Faults) (tree : FileTree) (output : String) (artifact : Artifact)
    (after : FileTree) : Except Failure Unit → Prop
  /-- The object file cannot be written in full. It holds a beginning of the bytes, and the
  dictionary is as before. -/
  | object {count : Nat} {error : FileError}
      (fault : faults (.file output) = some (.cut count error))
      (beginning : after.contents? output = some (artifact.bytes.take count))
      (kept : after.contents? (output ++ ".rld") = tree.contents? (output ++ ".rld")) :
      LeftApart faults tree output artifact after (.error (.output (.file output) error))
  /-- The program is relocatable, and its dictionary cannot be written. The object file holds the
  bytes, and the dictionary is as before or holds a beginning of the linkage data. -/
  | dictionary {error : FileError} (kind : artifact.relocatable = true)
      (object : after.contents? output = some artifact.bytes)
      (dictionary :
        after.contents? (output ++ ".rld") = tree.contents? (output ++ ".rld") ∨
        ∃ count, faults (.file (output ++ ".rld")) = some (.cut count error) ∧
          after.contents? (output ++ ".rld") = some ((dictionaryBytes artifact).take count)) :
      LeftApart faults tree output artifact after
        (.error (.output (.file (output ++ ".rld")) error))
  /-- The program is absolute, and a dictionary was there before. The object file holds the bytes;
  of the dictionary, nothing is said. -/
  | earlier {bytes : List UInt8} (kind : artifact.relocatable = false)
      (object : after.contents? output = some artifact.bytes)
      (earlier : tree.contents? (output ++ ".rld") = some bytes) :
      LeftApart faults tree output artifact after (.ok ())

section Together

variable {faults : Faults} {tree after : FileTree} {request : Request} {artifact : Artifact}
  {result : Except Failure Unit}

theorem Wrote.together (wrote : Wrote faults tree request.output artifact after result)
    (yields : Yields tree request artifact) (apart : ¬OneFile tree request.output) :
    StaysTogether tree request after ∨
      LeftApart faults tree request.output artifact after result := by
  cases wrote with
  | objectRefused => exact .inl (.inl ⟨rfl, rfl⟩)
  | objectCut leads fault =>
    exact .inr (.object fault (FileTree.contents?_set_self leads)
      (contents?_dictionary_set apart leads))
  | @absolute place leads kind =>
    have object : (tree.set place artifact.bytes).contents? request.output = some artifact.bytes :=
      FileTree.contents?_set_self leads
    cases earlier : tree.contents? (request.output ++ ".rld") with
    | none =>
      refine .inl (.inr ⟨artifact, yields, object, ?_⟩)
      rw [contents?_dictionary_set apart leads, earlier, kind]
      rfl
    | some bytes => exact .inr (.earlier kind object earlier)
  | dictionaryRefused leads kind =>
    exact .inr (.dictionary kind (FileTree.contents?_set_self leads)
      (.inl (contents?_dictionary_set apart leads)))
  | dictionaryCut leads kind beside fault =>
    exact .inr (.dictionary kind (contents?_object_set_set apart leads beside)
      (.inr ⟨_, fault, contents?_dictionary_set_set leads beside⟩))
  | relocatable leads kind beside =>
    refine .inl (.inr ⟨artifact, yields, contents?_object_set_set apart leads beside, ?_⟩)
    rw [contents?_dictionary_set_set leads beside, kind]
    rfl

theorem Comes.together (comes : Comes tree request faults after result) :
    StaysTogether tree request after ∨ OneFile tree request.output ∨
      ∃ artifact, Yields tree request artifact ∧ artifact.errors = [] ∧
        LeftApart faults tree request.output artifact after result := by
  cases comes with
  | unreadable | unprintable | wrong => exact .inl (.inl ⟨rfl, rfl⟩)
  | @wrote artifact _ _ yields _ right wrote =>
    by_cases one : OneFile tree request.output
    · exact .inr (.inl one)
    · obtain together | leftApart := wrote.together yields one
      · exact .inl together
      · exact .inr (.inr ⟨artifact, yields, right, leftApart⟩)

end Together

/-- **When the object file and the dictionary belong together.** After a build both files are as
before, or both are those of the program, wherever printing and writing may fail, with these
exceptions (`LeftApart`). A file that cannot be written in full holds a beginning of what was to be
written, and the build fails for it; if it is the dictionary of a relocatable program, the object
file is that of the program already, also if the dictionary cannot be opened. Nothing is said of a
dictionary that is there already when an absolute program is built; the object file is that of the
program then, too. And links may make both files one. -/
theorem run_keeps_together (tree : FileTree) (request : Request) (faults : Faults) :
    let outcome := run tree request faults
    StaysTogether tree request outcome.tree ∨
      (OneFile tree request.output ∧ ¬tree.LinkFree) ∨
      ∃ artifact, Yields tree request artifact ∧ artifact.errors = [] ∧
        LeftApart faults tree request.output artifact outcome.tree outcome.result := by
  intro outcome
  obtain together | one | leftApart := (comes_run tree request faults).together
  · exact .inl together
  · exact .inr (.inl ⟨one, fun free => not_oneFile_of_linkFree free request.output one⟩)
  · exact .inr (.inr leftApart)

/-- An object file that is cut after its first byte. -/
example :
    let full : FileError := .system "No space left on device (os error 28)"
    let outcome := run twoParts { input := "src/a.s", output := "a.o" } fun _ => some (.cut 1 full)
    outcome.result = .error (.output (.file "a.o") full) ∧
      outcome.tree.contents? "a.o" = some [0x4C] ∧ outcome.tree.contents? "a.o.rld" = none := by
  decide +kernel

/-- A relocatable program whose dictionary cannot be written, as a directory is in its place. -/
def blockedDictionary : FileTree := .ofFiles [
  ("a.s", textBytes " REL\nHERE JMP HERE\n"), ("a.o", [0xEA]), ("a.o.rld/x", [])]

/-- An absolute program with the dictionary of an earlier build. -/
def earlierDictionary : FileTree := .ofFiles [
  ("a.s", textBytes " NOP\n"), ("a.o.rld", textBytes "RLD $0001 2\n")]

theorem not_staysTogether {tree after : FileTree} {request : Request} {location : Location}
    {source : String} (read : readInput tree request = .ok (location, source))
    (changed : ¬SameFiles request.output tree after)
    (unmatched : ¬Holds request.output (artifactOf tree request location source) after) :
    ¬StaysTogether tree request after := by
  rintro (same | ⟨artifact, yields, holds⟩)
  · exact changed same
  · obtain ⟨location', source', read', rfl⟩ := yields_iff.mp yields
    obtain ⟨rfl, rfl⟩ := Prod.mk.inj (Except.ok.inj (read.symm.trans read'))
    exact unmatched holds

/-- A failure to write the dictionary leaves the object file replaced, and a dictionary of an
earlier build is left beside a new absolute object file. -/
theorem object_without_its_dictionary :
    let request : Request := { input := "a.s", output := "a.o" }
    ¬StaysTogether blockedDictionary request (run blockedDictionary request).tree ∧
      ¬StaysTogether earlierDictionary request (run earlierDictionary request).tree := by
  intro request
  have blocked : readInput blockedDictionary request =
      .ok ({ names := ["a.s", "work", "home"] }, " REL\nHERE JMP HERE\n") := by decide +kernel
  have earlier : readInput earlierDictionary request =
      .ok ({ names := ["a.s", "work", "home"] }, " NOP\n") := by decide +kernel
  constructor
  · refine not_staysTogether blocked (fun same => ?_) fun holds => ?_
    · exact absurd same.object (by decide +kernel)
    · exact absurd holds.dictionary (by decide +kernel)
  · refine not_staysTogether earlier (fun same => ?_) fun holds => ?_
    · exact absurd same.object (by decide +kernel)
    · exact absurd holds.dictionary (by decide +kernel)

end Asm6502.Build
