import Asm6502.Proofs.Location
import Asm6502.Statement.Parse
import Mathlib.Data.List.Forall2

/-!
# The listing and the output

A listing shows what the statements of a program put out. A statement that is assembled and shapes
the listing is not shown itself, and `LSTDO OFF` hides the statements of disabled blocks
(`Assembly.omitted`); neither puts out anything. Every other statement has one record, which holds
its bytes (`Assembly.Accounts`). While no statement turns the listing off, the records follow the
order of the statements, and their bytes are those of the output (`listing_accounts`).
-/

namespace Asm6502

namespace Listing

/-! ### Records of a listing -/

/-- The record that a line shows. -/
def Line.record? : Line → Option Record
  | .record statement => some statement
  | _ => none

/-- The records that a listing shows. -/
def records (listing : Listing) : List Record := listing.lines.toList.filterMap Line.record?

namespace Entry

/-- The record that an entry holds. -/
def record? : Entry → Option Record
  | .record statement => some statement
  | _ => none

/-- What an entry turns printing to. -/
def enabled? : Entry → Option Bool
  | .setEnabled on => some on
  | _ => none

/-- What an entry turns the printing of statements in disabled blocks to. -/
def showSuppressed? : Entry → Option Bool
  | .setShowSuppressed on => some on
  | _ => none

end Entry

variable (listing : Listing) (entry : Entry)

@[simp] theorem enabled_print (line : Line) : (listing.print line).enabled = listing.enabled := by
  unfold print
  split <;> rfl

@[simp] theorem showSuppressed_print (line : Line) :
    (listing.print line).showSuppressed = listing.showSuppressed := by
  unfold print
  split <;> rfl

theorem records_print {listing : Listing} (enabled : listing.enabled = true) (line : Line) :
    (listing.print line).records = listing.records ++ line.record?.toList := by
  simp only [print, if_pos enabled, records, Array.toList_push, List.filterMap_append]
  cases line <;> rfl

theorem enabled_add : (listing.add entry).enabled = entry.enabled?.getD listing.enabled := by
  cases entry with
  | record statement =>
    simp only [add]
    split
    · rfl
    · simp [Entry.enabled?]
  | _ => simp [add, Entry.enabled?]

theorem showSuppressed_add :
    (listing.add entry).showSuppressed = entry.showSuppressed?.getD listing.showSuppressed := by
  cases entry with
  | record statement =>
    simp only [add]
    split
    · rfl
    · simp [Entry.showSuppressed?]
  | _ => simp [add, Entry.showSuppressed?]

/-- While printing is on, a record is added at the end, unless it is suppressed and such records are
hidden. -/
theorem records_add {listing : Listing} (enabled : listing.enabled = true) (entry : Entry) :
    (listing.add entry).records = listing.records ++
      (entry.record?.filter fun record => !record.suppressed || listing.showSuppressed).toList := by
  cases entry with
  | record statement =>
    simp only [add, Entry.record?]
    cases hidden : statement.suppressed && !listing.showSuppressed with
    | true =>
      have filtered : (!statement.suppressed || listing.showSuppressed) = false := by
        simpa using hidden
      simp [Option.filter, filtered]
    | false =>
      have kept : (!statement.suppressed || listing.showSuppressed) = true := by
        simpa [← Bool.not_eq_false] using hidden
      simp [Option.filter, kept, records_print enabled, Line.record?]
  | setEnabled | setShowSuppressed | setRuleChar => simp [add, Entry.record?, records]
  | page | skip | rule => simp [add, Entry.record?, records_print enabled, Line.record?]
  | subtitle text =>
    have same : ({ listing with subtitle := some text } : Listing).enabled = true := enabled
    simp only [add, Entry.record?, records_print same, Line.record?]
    rfl

section Optional

variable (entry : Option Entry)

theorem enabled_foldl_add : (entry.toList.foldl add listing).enabled =
    (entry.bind Entry.enabled?).getD listing.enabled := by
  cases entry with
  | none => rfl
  | some entry => exact enabled_add listing entry

theorem showSuppressed_foldl_add : (entry.toList.foldl add listing).showSuppressed =
    (entry.bind Entry.showSuppressed?).getD listing.showSuppressed := by
  cases entry with
  | none => rfl
  | some entry => exact showSuppressed_add listing entry

theorem records_foldl_add {listing : Listing} (enabled : listing.enabled = true) :
    (entry.toList.foldl add listing).records = listing.records ++
      ((entry.bind Entry.record?).filter fun record =>
        !record.suppressed || listing.showSuppressed).toList := by
  cases entry with
  | none => simp
  | some entry => exact records_add enabled entry

end Optional

end Listing

namespace Statement

/-- The statement only shapes the listing. -/
def isListingControl (statement : Statement) : Bool :=
  (statement.directive?.map Directive.isListingControl).getD false

theorem directive?_of_isListingControl {statement : Statement}
    (control : statement.isListingControl = true) :
    ∃ kind, statement.directive? = some (.listing kind) := by
  unfold isListingControl at control
  cases written : statement.directive? with
  | none => simp [written] at control
  | some directive =>
    cases directive with
    | listing kind => exact ⟨kind, rfl⟩
    | _ => simp [written, Directive.isListingControl] at control

end Statement

namespace Effect

/-- A listing directive puts an entry into the listing as its kind asks for. -/
theorem entry_ofStatement_of_listing {env : Env} (listed : env.listing = true)
    {statement : Statement} {kind : ListingControl}
    (written : statement.directive? = some (.listing kind)) (decided : Option Layout) :
    ∃ count, (ofStatement env decided statement).entry =
      listingEntry kind statement.stringOrText count := by
  obtain ⟨operand, operation⟩ := Statement.operation_of_directive? written
  simp only [ofStatement, operation, Effect.directive, listing, listed, Bool.not_true,
    Bool.false_eq_true, if_false]
  exact ⟨_, rfl⟩

/-- The entry of a listing directive other than `LST` is no record and does not turn printing on or
off; that of `LSTDO` shows or hides disabled blocks. -/
theorem listingEntry_of_ne_list {kind : ListingControl} (other : kind ≠ .list) (text : String)
    (count : UInt16) :
    (listingEntry kind text count).bind Listing.Entry.record? = none ∧
      (listingEntry kind text count).bind Listing.Entry.enabled? = none ∧
      (listingEntry kind text count).bind Listing.Entry.showSuppressed? =
        if kind = .listDisabled then some ((switch? text).getD true) else none := by
  cases kind with
  | list => exact absurd rfl other
  | ruleChar =>
    simp only [listingEntry]
    cases text.toList.head? <;> exact ⟨rfl, rfl, rfl⟩
  | _ => exact ⟨rfl, rfl, rfl⟩

/-- A statement with bytes has an operation, and does not go to another location. -/
theorem origin_of_bytes {env : Env} {decided : Option Layout} {statement : Statement}
    (emits : (ofStatement env decided statement).bytes ≠ []) :
    statement.operation.isSome = true ∧ (ofStatement env decided statement).origin = none := by
  constructor
  · cases operation : statement.operation with
    | none => simp [ofStatement, operation] at emits
    | some written => rfl
  · refine origin_ofStatement env decided fun sets => emits ?_
    exact (ofStatement_of_org sets env decided).2.2

end Effect

namespace Assembly

/-! ### Entries of steps -/

namespace State

/-- The line of a statement counts as assembled. The lines that turn or close a block count as
belonging to the block around it. -/
def active (state : State) (statement : Statement) : Bool :=
  match statement.role with
  | .opens .. | .plain => state.conditions.enabled
  | .turns | .closes => state.conditions.outerEnabled

/-- What an `LSTDO` statement turns the printing of disabled blocks to, where it is assembled. -/
def showSuppressed? (state : State) (statement : Statement) : Option Bool :=
  if state.Assembles statement ∧ statement.directive? = some (.listing .listDisabled) then
    some ((Effect.switch? statement.stringOrText).getD true)
  else none

theorem active_of_assembles {state : State} {statement : Statement}
    (assembles : state.Assembles statement) : state.active statement = true := by
  simp [active, assembles.1, assembles.2]

end State

section Step

variable {options : Options} {state : State} {statement : Statement} {decided : Option Layout}

theorem entry_of_assembles (listed : options.listing = true)
    (assembles : state.Assembles statement) :
    (step options .two state (statement, decided)).2.entry =
      assembledEntry statement state.here (effectOf options .two state statement decided)
        (step options .two state (statement, decided)).2.bytes := by
  rw [step_of_assembles assembles, assembled_eq]
  simp only [entryWhen, listed, and_self, if_true]

theorem entry_of_not_assembles (listed : options.listing = true)
    (idle : ¬ state.Assembles statement) :
    (step options .two state (statement, decided)).2.entry =
      some (Assembly.listed statement state.here (!state.active statement) [] none) := by
  rw [step_eq, State.active]
  cases role : statement.role with
  | opens test operand => simp [openBlock, turned, entryWhen, listed]
  | turns => simp [turnBlock, turned, entryWhen, listed]
  | closes => simp [closeBlock, turned, entryWhen, listed]
  | plain =>
    have disabled : state.conditions.enabled = false := by
      rw [← Bool.not_eq_true]
      exact fun enabled => idle ⟨role, enabled⟩
    simp [disabled, skipped, entryWhen, listed]

theorem entry_of_control (listed : options.listing = true)
    (assembles : state.Assembles statement) (control : statement.isListingControl = true)
    (unswitched : statement.directive? ≠ some (.listing .list)) :
    let entry := (step options .two state (statement, decided)).2.entry
    entry.bind Listing.Entry.record? = none ∧ entry.bind Listing.Entry.enabled? = none ∧
      entry.bind Listing.Entry.showSuppressed? = state.showSuppressed? statement := by
  obtain ⟨kind, written⟩ := Statement.directive?_of_isListingControl control
  have other : kind ≠ .list := by
    rintro rfl
    exact unswitched written
  obtain ⟨count, put⟩ : ∃ count, (effectOf options .two state statement decided).entry =
      Effect.listingEntry kind statement.stringOrText count :=
    Effect.entry_ofStatement_of_listing listed written decided
  have entry : (step options .two state (statement, decided)).2.entry =
      Effect.listingEntry kind statement.stringOrText count := by
    rw [entry_of_assembles listed assembles, ← put]
    exact if_pos control
  have switched : state.showSuppressed? statement =
      if kind = .listDisabled then some ((Effect.switch? statement.stringOrText).getD true)
      else none := by
    simp [State.showSuppressed?, assembles, written]
  rw [entry, switched]
  exact Effect.listingEntry_of_ne_list other ..

/-- What a record tells of a statement that is processed in a state and puts out some bytes. -/
structure Shows (state : State) (statement : Statement) (emitted : List UInt8)
    (record : Listing.Record) : Prop where
  bytes : record.bytes = emitted
  line : record.line = statement.position.line
  text : record.text = statement.sourceText
  suppressed : record.suppressed = !state.active statement
  location : emitted ≠ [] → record.location = some state.here

theorem shows_of_assembles (listed : options.listing = true)
    (assembles : state.Assembles statement) (plain : statement.isListingControl = false) :
    ∃ record, (step options .two state (statement, decided)).2.entry = some (.record record) ∧
      Shows state statement (step options .two state (statement, decided)).2.bytes record := by
  have entry := @entry_of_assembles _ _ _ decided listed assembles
  rw [assembledEntry, if_neg (by simpa [Statement.isListingControl] using plain)] at entry
  refine ⟨_, entry, rfl, rfl, rfl, ?_, fun emits => ?_⟩
  · rw [State.active_of_assembles assembles]
    rfl
  · rw [(assembles_of_emits emits).2] at emits
    obtain ⟨operates, stays⟩ := Effect.origin_of_bytes emits
    have origin : (effectOf options .two state statement decided).origin = none := stays
    simp [operates, origin]

theorem shows_of_not_assembles (listed : options.listing = true)
    (idle : ¬ state.Assembles statement) :
    ∃ record, (step options .two state (statement, decided)).2.entry = some (.record record) ∧
      Shows state statement (step options .two state (statement, decided)).2.bytes record := by
  have silent := (@report_of_not_assembles options .two state statement decided idle).2.1
  refine ⟨_, entry_of_not_assembles listed idle, ?_⟩
  rw [silent]
  exact ⟨rfl, rfl, rfl, rfl, fun emits => absurd rfl emits⟩

/-- Every statement but an assembled listing directive is shown by one record. -/
theorem shows_of_not_control (listed : options.listing = true)
    (shown : ¬ (state.Assembles statement ∧ statement.isListingControl = true)) :
    state.showSuppressed? statement = none ∧
      ∃ record, (step options .two state (statement, decided)).2.entry = some (.record record) ∧
        Shows state statement (step options .two state (statement, decided)).2.bytes record := by
  constructor
  · refine if_neg fun switches => shown ⟨switches.1, ?_⟩
    simp [Statement.isListingControl, switches.2, Directive.isListingControl]
  · by_cases assembles : state.Assembles statement
    · refine shows_of_assembles listed assembles ?_
      rw [← Bool.not_eq_true]
      exact fun control => shown ⟨assembles, control⟩
    · exact shows_of_not_assembles listed assembles

end Step

/-! ### The listing of a run -/

section Run

variable (options : Options) (statements : List Statement)

/-- The listing of the first statements. -/
def listingBefore (i : Nat) : Listing :=
  .ofEntries (((outcome options statements .two).2.take i).filterMap (·.entry))

/-- Statements in disabled blocks are shown at index `i`: the last assembled `LSTDO` statement
before it says so, or there is none. -/
def showsSuppressed (i : Nat) : Bool :=
  ((statements.zipIdx.take i).filterMap fun item =>
    (before options statements .two item.2).showSuppressed? item.1).getLast?.getD true

/-- The statement is not shown: it is assembled and shapes the listing, or it is suppressed and such
statements are hidden. -/
def omitted (item : Statement × Nat) : Bool :=
  let state := before options statements .two item.2
  (decide (state.Assembles item.1) && item.1.isListingControl) ||
    (!state.active item.1 && !showsSuppressed options statements item.2)

/-- A record accounts for a statement: it has its bytes, line and text, and if there are bytes, the
location of the first of them. -/
structure Accounts (record : Listing.Record) (item : Statement × Nat) : Prop where
  bytes : record.bytes = (visit options statements .two item.2 item.1).2.bytes
  line : record.line = item.1.position.line
  text : record.text = item.1.sourceText
  suppressed : record.suppressed = !(before options statements .two item.2).active item.1
  enabled : record.bytes ≠ [] → record.suppressed = false
  location : record.bytes ≠ [] → record.location.isSome = true ∧
    record.location = (locations options statements)[outputBefore options statements item.2]?

end Run

variable {options : Options} {statements : List Statement} {i : Nat} {statement : Statement}

theorem Shows.accounts {record : Listing.Record} (found : statements[i]? = some statement)
    (shows : Shows (before options statements .two i) statement
      (visit options statements .two i statement).2.bytes record) :
    Accounts options statements record (statement, i) where
  bytes := shows.bytes
  line := shows.line
  text := shows.text
  suppressed := shows.suppressed
  enabled emits := by
    rw [shows.bytes] at emits
    rw [shows.suppressed, State.active_of_assembles (assembles_of_emits emits).1]
    rfl
  location emits := by
    rw [shows.bytes] at emits
    have first := getElem?_locations found (List.length_pos_iff.mpr emits)
    rw [shows.location emits]
    refine ⟨rfl, ?_⟩
    simpa using first.symm

theorem listingBefore_succ (found : statements[i]? = some statement) :
    listingBefore options statements (i + 1) =
      (visit options statements .two i statement).2.entry.toList.foldl Listing.add
        (listingBefore options statements i) := by
  rw [listingBefore, List.take_add_one, getElem?_reports found, List.filterMap_append,
    Listing.ofEntries, List.foldl_append]
  cases entry : (visit options statements .two i statement).2.entry with
  | none => simp [entry, listingBefore, Listing.ofEntries]
  | some put => simp [entry, listingBefore, Listing.ofEntries]

theorem showsSuppressed_succ (found : statements[i]? = some statement) :
    showsSuppressed options statements (i + 1) =
      ((before options statements .two i).showSuppressed? statement).getD
        (showsSuppressed options statements i) := by
  have listed : statements.zipIdx[i]? = some (statement, i) := by
    simp [List.getElem?_zipIdx, found]
  rw [showsSuppressed, List.take_add_one, listed, List.filterMap_append, List.getLast?_append]
  cases switched : (before options statements .two i).showSuppressed? statement with
  | none => simp [switched, showsSuppressed]
  | some on => simp [switched]

/-- The records of a listing, up to a statement: printing is on, disabled blocks are shown as
`LSTDO` asks for, and the records account for the statements that are not omitted. -/
structure Recorded (options : Options) (statements : List Statement) (i : Nat) : Prop where
  enabled : (listingBefore options statements i).enabled = true
  showSuppressed : (listingBefore options statements i).showSuppressed =
    showsSuppressed options statements i
  records : List.Forall₂ (Accounts options statements) (listingBefore options statements i).records
    ((statements.zipIdx.take i).filter (!omitted options statements ·))

theorem recorded_zero : Recorded options statements 0 where
  enabled := by simp [listingBefore, Listing.ofEntries]
  showSuppressed := by simp [listingBefore, Listing.ofEntries, showsSuppressed]
  records := by simp [listingBefore, Listing.ofEntries, Listing.records]

/-- A listing directive is omitted. -/
theorem Recorded.succ_of_control (listed : options.listing = true)
    (recorded : Recorded options statements i) (found : statements[i]? = some statement)
    (unswitched : statement.directive? ≠ some (.listing .list))
    (control : (before options statements .two i).Assembles statement ∧
      statement.isListingControl = true) : Recorded options statements (i + 1) := by
  obtain ⟨record, enabled, switches⟩ := @entry_of_control _ _ _
    (decided options statements .two i) listed control.1 control.2 unswitched
  have indexed : statements.zipIdx[i]? = some (statement, i) := by
    simp [List.getElem?_zipIdx, found]
  have omits : omitted options statements (statement, i) = true := by simp [omitted, control]
  constructor
  case enabled =>
    rw [listingBefore_succ found, Listing.enabled_foldl_add, visit, enabled]
    exact recorded.enabled
  case showSuppressed =>
    rw [listingBefore_succ found, Listing.showSuppressed_foldl_add, visit, switches,
      recorded.showSuppressed, showsSuppressed_succ found]
  case records =>
    rw [listingBefore_succ found, Listing.records_foldl_add _ recorded.enabled, visit, record,
      List.take_add_one, indexed, List.filter_append]
    simpa [omits] using recorded.records

/-- Any other statement has a record, which is omitted if it is suppressed and hidden. -/
theorem Recorded.succ_of_not_control (listed : options.listing = true)
    (recorded : Recorded options statements i) (found : statements[i]? = some statement)
    (shown : ¬ ((before options statements .two i).Assembles statement ∧
      statement.isListingControl = true)) : Recorded options statements (i + 1) := by
  obtain ⟨unswitched, record, entry, shows⟩ := @shows_of_not_control _ _ _
    (decided options statements .two i) listed shown
  have indexed : statements.zipIdx[i]? = some (statement, i) := by
    simp [List.getElem?_zipIdx, found]
  have kept : (!record.suppressed || (listingBefore options statements i).showSuppressed) =
      !omitted options statements (statement, i) := by
    have plain : (decide ((before options statements .two i).Assembles statement) &&
        statement.isListingControl) = false := by simpa using shown
    rw [shows.suppressed, recorded.showSuppressed, omitted, plain]
    simp
  constructor
  case enabled =>
    rw [listingBefore_succ found, Listing.enabled_foldl_add, visit, entry]
    exact recorded.enabled
  case showSuppressed =>
    rw [listingBefore_succ found, Listing.showSuppressed_foldl_add, visit, entry,
      showsSuppressed_succ found, unswitched]
    exact recorded.showSuppressed
  case records =>
    rw [listingBefore_succ found, Listing.records_foldl_add _ recorded.enabled, visit, entry,
      List.take_add_one, indexed, List.filter_append]
    refine List.rel_append recorded.records ?_
    simp only [Option.bind_some, Listing.Entry.record?, Option.filter, kept]
    cases omits : omitted options statements (statement, i) with
    | true => simp [omits]
    | false => simpa [omits] using shows.accounts found

/-- **Each statement is recorded**, unless it is omitted. -/
theorem Recorded.of_le (listed : options.listing = true)
    (unswitched : ∀ statement ∈ statements, statement.directive? ≠ some (.listing .list))
    (le : i ≤ statements.length) : Recorded options statements i := by
  induction i with
  | zero => exact recorded_zero
  | succ i ih =>
    have found := List.getElem?_eq_getElem le
    have recorded := ih (Nat.le_of_lt le)
    by_cases control : (before options statements .two i).Assembles statements[i] ∧
        statements[i].isListingControl = true
    · exact recorded.succ_of_control listed found (unswitched _ (List.getElem_mem le)) control
    · exact recorded.succ_of_not_control listed found control

/-! ### Bytes of records -/

/-- Omitted statements put out nothing. -/
theorem bytes_of_omitted {item : Statement × Nat} (omits : omitted options statements item = true) :
    (visit options statements .two item.2 item.1).2.bytes = [] := by
  by_contra emits
  obtain ⟨assembles, bytes⟩ := assembles_of_emits emits
  have control : item.1.isListingControl = true := by
    simpa [omitted, assembles, State.active_of_assembles assembles] using omits
  obtain ⟨kind, written⟩ := Statement.directive?_of_isListingControl control
  obtain ⟨operand, operation⟩ := Statement.operation_of_directive? written
  refine emits ?_
  rw [visit, bytes, effectOf, Effect.ofStatement, operation]
  simp only [Effect.directive, Effect.listing]
  split <;> rfl

/-- Items that are mapped to nothing can be left out. -/
theorem flatMap_filter_of_nil {α β : Type} {items : List α} {keep : α → Bool} {f : α → List β}
    (silent : ∀ item, keep item = false → f item = []) :
    (items.filter keep).flatMap f = items.flatMap f := by
  induction items with
  | nil => rfl
  | cons item items ih =>
    cases kept : keep item with
    | true => simp [kept, ih]
    | false => simp [kept, ih, silent item kept]

theorem flatMap_bytes_of_accounts {records : List Listing.Record} {items : List (Statement × Nat)}
    (accounts : List.Forall₂ (Accounts options statements) records items) :
    records.flatMap (·.bytes) =
      items.flatMap fun item => (visit options statements .two item.2 item.1).2.bytes := by
  induction accounts with
  | nil => rfl
  | cons first rest ih => rw [List.flatMap_cons, List.flatMap_cons, ih, first.bytes]

/-- The listing of a program. -/
def listingOf (options : Options) (statements : List Statement) : Listing :=
  .ofEntries ((outcome options statements .two).2.filterMap (·.entry))

/-- **The listing accounts for every byte.** For a program that never turns the listing off or on,
the records of the listing stand for its statements in their order, all but those that are omitted,
and the bytes of the records are the bytes of the program. -/
theorem listing_accounts (options : Options) (statements : List Statement)
    (listed : options.listing = true)
    (unswitched : ∀ statement ∈ statements, statement.directive? ≠ some (.listing .list)) :
    let artifact := run options statements
    let listing := listingOf options statements
    artifact.listing = some (listing.render artifact.symbols) ∧
      List.Forall₂ (Accounts options statements) listing.records
        (statements.zipIdx.filter (!omitted options statements ·)) ∧
      listing.records.flatMap (·.bytes) = artifact.bytes := by
  intro artifact listing
  have recorded := (Recorded.of_le listed unswitched (Nat.le_refl _)).records
  have whole : listingBefore options statements statements.length = listing := by
    rw [listingBefore, List.take_of_length_le (by simp [outcome])]
    rfl
  rw [whole, List.take_of_length_le (by simp)] at recorded
  have printed : artifact.listing = some (listing.render artifact.symbols) := if_pos listed
  refine ⟨printed, recorded, ?_⟩
  rw [flatMap_bytes_of_accounts recorded, flatMap_filter_of_nil, ← bytes_run_eq]
  intro item omits
  exact bytes_of_omitted (by simpa using omits)

/-- A program with a block that is left out and not shown, and with listing directives:

        LSTDO OFF
        ORG $300
  MSG   ASC "HI"
        DO 0
        DFB 1
        FIN
        SKP 1
        JMP MSG
-/
def hiddenBlock : List Statement :=
  Statement.ofSource
    " LSTDO OFF\n ORG $300\nMSG ASC \"HI\"\n DO 0\n DFB 1\n FIN\n SKP 1\n JMP MSG\n"

/-- The listing of `hiddenBlock` shows the lines 2, 3, 4, 6 and 8, two of them with bytes. -/
theorem listing_accounts_hiddenBlock :
    (∀ statement ∈ hiddenBlock, statement.directive? ≠ some (.listing .list)) ∧
      (hiddenBlock.zipIdx.filter (!omitted { listing := true } hiddenBlock ·)).map (·.2) =
        [1, 2, 3, 5, 7] ∧
      (listingOf { listing := true } hiddenBlock).records.map
          (fun record => (record.line, record.location, record.bytes)) =
        [(2, some 0x300, []), (3, some 0x300, [0x48, 0x49]), (4, some 0x302, []),
          (6, some 0x302, []), (8, some 0x302, [0x4C, 0x00, 0x03])] ∧
      (listingOf { listing := true } hiddenBlock).records.flatMap (·.bytes) =
        (run { listing := true } hiddenBlock).bytes := by
  have unswitched : ∀ statement ∈ hiddenBlock, statement.directive? ≠ some (.listing .list) := by
    decide +kernel
  obtain ⟨-, -, bytes⟩ := listing_accounts { listing := true } hiddenBlock rfl unswitched
  exact ⟨unswitched, by decide +kernel, by decide +kernel, bytes⟩

end Assembly

end Asm6502
