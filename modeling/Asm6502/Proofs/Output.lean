import Asm6502.Proofs.Trajectory

/-!
# Places in the output

The output is what the visits of the second pass produce, one after another. `outputBefore` is the
place in the output where the bytes of a statement start, and `locations` gives every byte of the
output its location: the bytes of a statement lie one after another from the location counter on.
`StandsAt` says that a list stands within another from some place on; what stands within the bytes
of a statement stands within the output (`StandsAt.trans`, `standsAt_visit`).
-/

namespace Asm6502

variable {α β : Type}

/-- The part stands in the whole, with `offset` items before it. -/
def StandsAt (whole : List α) (offset : Nat) (part : List α) : Prop :=
  ∃ before after, whole = before ++ part ++ after ∧ before.length = offset

namespace StandsAt

variable {whole part : List α} {offset : Nat}

theorem length_le (stands : StandsAt whole offset part) :
    offset + part.length ≤ whole.length := by
  obtain ⟨before, after, rfl, rfl⟩ := stands
  simp

theorem trans {inner : List α} {offset' : Nat} (stands : StandsAt whole offset part)
    (inside : StandsAt part offset' inner) : StandsAt whole (offset + offset') inner := by
  obtain ⟨before, after, rfl, rfl⟩ := stands
  obtain ⟨before', after', rfl, rfl⟩ := inside
  exact ⟨before ++ before', after' ++ after, by simp, by simp⟩

theorem getElem? (stands : StandsAt whole offset part) {j : Nat} (inside : j < part.length) :
    whole[offset + j]? = part[j]? := by
  obtain ⟨before, after, rfl, rfl⟩ := stands
  rw [List.append_assoc, List.getElem?_append_right (by omega), Nat.add_sub_cancel_left,
    List.getElem?_append_left inside]

end StandsAt

/-- What an item is mapped to stands after what the items before it are mapped to. -/
theorem standsAt_flatMap {items : List α} {i : Nat} {item : α} (found : items[i]? = some item)
    (f : α → List β) :
    StandsAt (items.flatMap f) ((items.take i).flatMap f).length (f item) := by
  obtain ⟨inside, rfl⟩ := List.getElem?_eq_some_iff.mp found
  refine ⟨(items.take i).flatMap f, (items.drop (i + 1)).flatMap f, ?_, rfl⟩
  calc items.flatMap f
      = (items.take i ++ items.drop i).flatMap f := by rw [List.take_append_drop]
    _ = (items.take i).flatMap f ++ f items[i] ++ (items.drop (i + 1)).flatMap f := by
        rw [List.drop_eq_getElem_cons inside, List.flatMap_append, List.flatMap_cons,
          List.append_assoc]

/-- Items with their indices are in the order of the indices. -/
theorem pairwise_zipIdx (items : List α) : items.zipIdx.Pairwise fun first second =>
    first.2 < second.2 := by
  apply List.pairwise_map.mp
  rw [List.zipIdx_map_snd]
  exact List.pairwise_lt_range'

namespace Assembly

section Output

variable (options : Options) (statements : List Statement)

/-- The number of bytes in the output before those of the statement at index `i`. -/
def outputBefore (i : Nat) : Nat :=
  (((outcome options statements .two).2.take i).flatMap (·.bytes)).length

/-- The locations of the bytes that the statement at index `i` produces, from the location counter
on. -/
def span (i : Nat) (statement : Statement) : List UInt16 :=
  (List.range (visit options statements .two i statement).2.bytes.length).map fun j =>
    (before options statements .two i).here + UInt16.ofNat j

/-- The location of each byte of the output. -/
def locations : List UInt16 :=
  statements.zipIdx.flatMap fun (statement, i) => span options statements i statement

end Output

variable {options : Options} {statements : List Statement} {i : Nat} {statement : Statement}

/-- The output is what the visits of the second pass put out. -/
theorem bytes_run_eq :
    (run options statements).bytes = statements.zipIdx.flatMap fun item =>
      (visit options statements .two item.2 item.1).2.bytes := by
  show (outcome options statements .two).2.flatMap (·.bytes) = _
  rw [reports_eq, List.flatMap_map]

theorem outputBefore_succ (found : statements[i]? = some statement) :
    outputBefore options statements (i + 1) =
      outputBefore options statements i +
        (visit options statements .two i statement).2.bytes.length := by
  rw [outputBefore, List.take_add_one, getElem?_reports found]
  simp [outputBefore]

theorem outputBefore_mono {i j : Nat} (le : i ≤ j) :
    outputBefore options statements i ≤ outputBefore options statements j := by
  have split := List.take_append_drop i ((outcome options statements .two).2.take j)
  rw [List.take_take, Nat.min_eq_left le] at split
  rw [outputBefore, outputBefore, ← split, List.flatMap_append, List.length_append]
  exact Nat.le_add_right ..

/-- The bytes of a visit stand in the output. -/
theorem standsAt_visit (found : statements[i]? = some statement) :
    StandsAt (run options statements).bytes (outputBefore options statements i)
      (visit options statements .two i statement).2.bytes :=
  standsAt_flatMap (getElem?_reports found) _

theorem standsAt_locations (found : statements[i]? = some statement) :
    StandsAt (locations options statements) (outputBefore options statements i)
      (span options statements i statement) := by
  have listed : statements.zipIdx[i]? = some (statement, i) := by
    simp [List.getElem?_zipIdx, found]
  -- there are as many locations as bytes before the statement
  have same : ((statements.zipIdx.take i).flatMap fun (statement, i) =>
      span options statements i statement).length = outputBefore options statements i := by
    rw [outputBefore, reports_eq, ← List.map_take, List.flatMap_map, List.length_flatMap,
      List.length_flatMap]
    simp [span]
  exact same ▸ standsAt_flatMap listed fun (statement, i) => span options statements i statement

/-- The bytes of a statement lie one after another from the location counter on. -/
theorem getElem?_locations (found : statements[i]? = some statement) {j : Nat}
    (inside : j < (visit options statements .two i statement).2.bytes.length) :
    (locations options statements)[outputBefore options statements i + j]? =
      some ((before options statements .two i).here + UInt16.ofNat j) := by
  rw [(standsAt_locations found).getElem? (by simpa [span] using inside)]
  simp [span, inside]

end Assembly

end Asm6502
