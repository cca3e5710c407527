import VeilKnit.Library.LabelledSystem
import VeilKnit.Mailbox.PageGeneration

/-!
# A record that keeps what landed

The DHT record as a memory: a read that is served returns the last value that
landed, a write that is served lands, and a write that fails may have landed or
not. Each call's fate is an input. A crash inside a commit is the commit under
fates that serve nothing from some call on.

The module follows a commit through such a record. Whatever fails, the pages that
the current index lists and the current index itself stay as they are.
-/

namespace VeilKnit.Mailbox

open Library Fallible

/-- What happens to a call: it is carried out, refused, or carried out without the
caller learning of it. -/
inductive Fate
  | served
  | refused
  | lost
  deriving DecidableEq

/-- What has landed under each subkey. -/
abbrev Memory := Subkey → Option Bytes

structure Record where
  totalSubkeys : UInt32
  memory : Memory
  fates : List Fate

namespace Record

/-- The fate of the next call. Calls beyond the list are served. -/
def nextFate (w : Record) : Fate := w.fates.headD .served

def advance (w : Record) : Record := { w with fates := w.fates.tail }

def land (w : Record) (subkey : Subkey) (bytes : Bytes) : Record :=
  { w with memory := Function.update w.memory subkey (some bytes) }

end Record

/-- The operations of a record. -/
def recordOps : DhtOps Record where
  totalSubkeys w := some w.totalSubkeys
  read subkey w :=
    match w.nextFate with
    | .served =>
      match w.memory subkey with
      | some bytes => (.ok bytes, w.advance)
      | none => (.error .notFound, w.advance)
    | _ => (.error (.other "read failed"), w.advance)
  write subkey bytes w :=
    match w.nextFate with
    | .served => (.ok (), w.advance.land subkey bytes)
    | .refused => (.error (.other "write failed"), w.advance)
    | .lost => (.error (.other "write timed out"), w.advance.land subkey bytes)
  persistTransactionLog _ w :=
    match w.nextFate with
    | .served => (.ok (), w.advance)
    | _ => (.error (.auth "transaction log not written"), w.advance)

/-! ## Calls -/

section Calls

variable {m : Memory}

/-- The record holds these bytes under the subkey. -/
def Memory.Holds (m : Memory) (subkey : Subkey) (bytes : Bytes) : Prop := m subkey = some bytes

theorem readsAs_record : ReadsAs recordOps (fun w => w.memory = m) m.Holds := by
  intro subkey w hw
  simp only [recordOps]
  cases w.nextFate with
  | served =>
    cases hread : w.memory subkey with
    | none => exact hw
    | some bytes => exact ⟨hw, hw ▸ hread⟩
  | refused => exact hw
  | lost => exact hw

theorem triple_store (subkey : Subkey) (bytes : Bytes) :
    Triple (fun w => w.memory = m) (recordOps.store subkey bytes)
      (fun _ w => w.memory = Function.update m subkey (some bytes))
      (fun _ w => w.memory = m ∨ w.memory = Function.update m subkey (some bytes)) := by
  refine triple_mapError fun w hw => ?_
  simp only [recordOps]
  cases w.nextFate with
  | served => simp [Record.land, Record.advance, hw]
  | refused => exact .inl hw
  | lost => exact .inr (by simp [Record.land, Record.advance, hw])

theorem triple_persist (transactions : List PendingCowTransaction) :
    Triple (fun w => w.memory = m) (recordOps.persistTransactionLog transactions)
      (fun _ w => w.memory = m) (fun _ w => w.memory = m) := by
  intro w hw
  simp only [recordOps]
  cases w.nextFate <;> exact hw

end Calls

/-! ## A commit -/

section Commit

variable {D T : Type} [DigestScheme D] [DecidableEq D] [PageEntry T]

/-- Some of the page writes have landed. -/
def PartlyWritten (m : Memory) (writes : List (CowPageDescriptor D × Bytes)) (m' : Memory) : Prop :=
  ∀ k, m' k = m k ∨ ∃ write ∈ writes, write.1.subkey = k ∧ m' k = some write.2

section

omit [DigestScheme D] [DecidableEq D]

theorem PartlyWritten.refl (m : Memory) (writes : List (CowPageDescriptor D × Bytes)) :
    PartlyWritten m writes m :=
  fun _ => .inl rfl

theorem PartlyWritten.land {m m' : Memory} {writes : List (CowPageDescriptor D × Bytes)}
    (h : PartlyWritten m writes m') {write : CowPageDescriptor D × Bytes}
    (hwrite : write ∈ writes) :
    PartlyWritten m writes (Function.update m' write.1.subkey (some write.2)) := by
  intro k
  by_cases hk : k = write.1.subkey
  · subst hk
    exact .inr ⟨write, hwrite, rfl, Function.update_self ..⟩
  · rw [Function.update_of_ne hk]
    exact h k

theorem triple_writePages {m : Memory} (writes : List (CowPageDescriptor D × Bytes)) :
    Triple (fun w => w.memory = m) (writePages recordOps writes)
      (fun _ w => PartlyWritten m writes w.memory)
      (fun _ w => PartlyWritten m writes w.memory) := by
  have hwrites : Triple (fun w => PartlyWritten m writes w.memory)
      (gather (fun write : CowPageDescriptor D × Bytes =>
        recordOps.store write.1.subkey write.2) writes)
      (fun _ w => PartlyWritten m writes w.memory)
      (fun _ w => PartlyWritten m writes w.memory) := by
    refine (triple_gather (R := fun _ _ => True) (C := True) fun write hwrite => ?_).weaken
      (fun _ hw => hw) (fun _ _ hw => hw.1) (fun _ _ hw => hw.1)
    intro w hw
    have hlanded := hw.land hwrite
    refine (triple_store (m := w.memory) write.1.subkey write.2).weaken
      (P := fun w' => w' = w) (fun w' h => by rw [h]) (fun _ w' h => ?_) (fun _ w' h => ?_) w rfl
    · exact ⟨h ▸ hlanded, trivial⟩
    · rcases h with h | h
      · exact ⟨h ▸ hw, trivial⟩
      · exact ⟨h ▸ hlanded, trivial⟩
  refine triple_bind (hwrites.weaken ?_ (fun _ _ hw => hw) (fun _ _ hw => hw)) fun _ =>
    triple_pure fun _ hw => hw
  intro w hw
  rw [hw]
  exact PartlyWritten.refl m writes

end

/-- A commit has stopped somewhere: some page writes have landed, and the index
write has landed or not. -/
def Interrupted (m : Memory) (plan : GenerationPlan D) (index : CowIndex D) (m' : Memory) : Prop :=
  ∃ written, PartlyWritten m plan.pageWrites written ∧
    (m' = written ∨ m' = Function.update written plan.targetSlot (some index.serialize))

omit [DecidableEq D] in
theorem deserialize_serialize {index readback : CowIndex D}
    (h : deserialize CowIndex.codec index.serialize = .ok readback) : readback = index := by
  unfold deserialize decodeBincodeLimited at h
  split at h
  · cases h
  · split at h
    · cases h
    · rw [CowIndex.serialize, Codec.decodeAll_encode] at h
      exact (Except.ok.inj h).symm

/-- An index that is read back over a record is the one that was written. -/
theorem triple_writeIndex {m : Memory} (slot : Subkey) (index : CowIndex D) :
    Triple (fun w => w.memory = m) (writeIndex recordOps slot index)
      (fun readback w => w.memory = Function.update m slot (some index.serialize) ∧
        readback = index ∧ deserialize CowIndex.codec index.serialize = .ok index)
      (fun _ w => w.memory = m ∨ w.memory = Function.update m slot (some index.serialize)) := by
  refine triple_bind (triple_store slot index.serialize) fun _ => ?_
  refine triple_bind ((readsAs_record.fetch slot).weaken (fun _ hw => hw) (fun _ _ hw => hw)
    (fun _ _ hw => .inr hw)) fun bytes => ?_
  refine triple_lift (fun readback hcheck w hw => ?_) fun _ _ w hw => .inr hw.1
  obtain ⟨hmemory, hholds⟩ := hw
  have hbytes : bytes = index.serialize := by
    simpa [Memory.Holds, eq_comm] using hholds
  subst hbytes
  simp only [checkIndexReadback, except_bind_eq_ok] at hcheck
  obtain ⟨decoded, hdecoded, hcheck⟩ := hcheck
  obtain rfl := deserialize_serialize hdecoded
  split at hcheck
  · cases hcheck
  · exact ⟨hmemory, (Except.ok.inj hcheck).symm, hdecoded⟩

/-- What a written generation has made of the record. -/
structure Landed (m : Memory) (plan : GenerationPlan D) (index : CowIndex D)
    (pages : List (LocalPage D T)) (m' : Memory) : Prop where
  written : ∃ written, PartlyWritten m plan.pageWrites written ∧
    m' = Function.update written plan.targetSlot (some index.serialize)
  decodes : deserialize CowIndex.codec index.serialize = .ok index
  opened : OpenedFrom m'.Holds index pages

theorem triple_writeGeneration_record {m : Memory} (store : CowPagedStore D T)
    (plan : GenerationPlan D) (createdAt : UInt64) (transactions : List PendingCowTransaction) :
    Triple (fun w => w.memory = m) (writeGeneration recordOps store plan createdAt transactions)
      (fun r w => r.1 = store.planIndex plan createdAt ∧
        r.1.serialize.length ≤ estimatedDhtValueLimit store.totalSubkeys ∧
        Landed m plan r.1 r.2 w.memory)
      (fun _ w => Interrupted m plan (store.planIndex plan createdAt) w.memory) := by
  have hstart : Interrupted m plan (store.planIndex plan createdAt) m := ⟨m, .refl m _, .inl rfl⟩
  have hpages : ∀ written, PartlyWritten m plan.pageWrites written →
      Interrupted m plan (store.planIndex plan createdAt) written :=
    fun written h => ⟨written, h, .inl rfl⟩
  refine triple_bind ((triple_persist transactions).weaken (fun _ hw => hw) (fun _ _ hw => hw)
    (fun _ w hw => hw ▸ hstart)) fun _ => ?_
  refine triple_bind ((triple_writePages plan.pageWrites).weaken (fun _ hw => hw) (fun _ _ hw => hw)
    (fun _ w hw => hpages _ hw)) fun _ w hw => ?_
  generalize hwritten : w.memory = written at hw
  have hread : ReadsAs recordOps (fun w => w.memory = written) written.Holds := readsAs_record
  have hinterrupted := hpages written hw
  refine triple_bind (P := fun w => w.memory = written)
    (M := fun _ w => w.memory = written) ?_ (fun _ => ?_) w hwritten
  · refine (triple_traverse_forall₂ (R := fun _ _ => True)
      (fun write _ => (triple_readBackPage hread write.1).weaken (fun _ h => h)
        (fun _ _ h => ⟨h, trivial⟩)
        (fun _ _ h => h))).weaken (fun _ h => h) (fun _ _ h => h.1) (fun _ _ h => ?_)
    rw [h]
    exact hinterrupted
  dsimp only
  split
  case isTrue =>
    refine triple_throw fun w h => ?_
    rw [h]
    exact hinterrupted
  case isFalse hfits =>
  refine triple_bind ((triple_writeIndex plan.targetSlot _).weaken (fun _ h => h)
    (fun _ _ h => h) (fun _ w h => ⟨written, hw, h⟩)) fun readback w h => ?_
  obtain ⟨hmemory, rfl, hdecodes⟩ := h
  refine triple_bind (P := fun w' => w'.memory = w.memory)
    ((triple_loadAndValidateOwnedPages (T := T) readsAs_record _).weaken (fun _ h => h)
      (fun _ _ h => h) (fun _ w' h => ?_)) (fun pages => ?_) w rfl
  · rw [h]
    exact ⟨written, hw, .inr hmemory⟩
  · refine triple_pure fun w' h => ⟨rfl, not_lt.mp hfits, ⟨written, hw, ?_⟩, hdecodes, ?_⟩
    · rw [h.1]
      exact hmemory
    · rw [h.1]
      exact h.2

end Commit

end VeilKnit.Mailbox
