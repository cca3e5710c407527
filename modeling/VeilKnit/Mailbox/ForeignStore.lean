import VeilKnit.Mailbox.PageRecovery

/-!
# Reading somebody else's store

A foreign reader reads the two index slots of a record, tries the valid indexes newest
first, reads the pages that an index lists and checks them against it. Every subkey is
read on its own, at its own time. The owner meanwhile edits its store and commits; the
writes of a commit land one by one, in any order.
-/

namespace VeilKnit.Mailbox

open Library

variable {D T : Type} [DigestScheme D] [DecidableEq D] [PageEntry T]

/-! ## The reader -/

/-- What a reader has got from each subkey it has read, in the order of the reads. -/
abbrev ForeignReads := List (Subkey × Option Bytes)

/-- The valid indexes among the reads, newest first. -/
def foreignIndexes (reads : ForeignReads) : List (CowIndex D) :=
  (reads.filterMap fun read => read.2.bind openIndex).insertionSort
    fun a b => b.generation ≤ a.generation

/-- The entries of the listed pages, if every page was read and is valid. -/
def openForeign (reads : ForeignReads) : List (CowPageDescriptor D) → Option (List T)
  | [] => some []
  | descriptor :: descriptors =>
    match reads.lookup descriptor.subkey with
    | some (some bytes) =>
      match openPage (T := T) descriptor bytes with
      | .ok page => (openForeign reads descriptors).map (page.entries ++ ·)
      | .error _ => none
    | _ => none

/-- Where a reader is: reading the index slots, reading the pages of an index with
others left to try, or done. -/
inductive ForeignStage (D T : Type)
  | indexes (reads : ForeignReads)
  | pages (index : CowIndex D) (reads : ForeignReads) (later : List (CowIndex D))
  | done (result : Except MailboxError (CowIndex D × List T))

structure ForeignRead (D T : Type) where
  recordKey : String
  maximumPages : Nat
  stage : ForeignStage D T

namespace ForeignRead

/-- The next index that lists no more pages than the reader accepts. -/
def tryNext (recordKey : String) (maximumPages : Nat) : List (CowIndex D) → ForeignStage D T
  | [] => .done (.error (.storeCorrupt s!"no completely valid index generation for {recordKey}"))
  | index :: later =>
    if maximumPages < index.pages.length then tryNext recordKey maximumPages later
    else .pages index [] later

/-- The subkeys that the reader asks for at this stage. -/
def locations (reader : ForeignRead D T) : List Subkey :=
  match reader.stage with
  | .indexes _ => [indexSlotA, indexSlotB]
  | .pages index _ _ => index.pages.map CowPageDescriptor.subkey
  | .done _ => []

/-- What it has read at this stage. -/
def reads (reader : ForeignRead D T) : ForeignReads :=
  match reader.stage with
  | .indexes reads => reads
  | .pages _ reads _ => reads
  | .done _ => []

/-- The reads that are still out. -/
def missing (reader : ForeignRead D T) : List Subkey :=
  reader.locations.filter fun subkey => (reader.reads.lookup subkey).isNone

/-- One read returns. -/
def read (reader : ForeignRead D T) (subkey : Subkey) (bytes : Option Bytes) : ForeignRead D T :=
  { reader with
    stage :=
      match reader.stage with
      | .indexes reads => .indexes (reads ++ [(subkey, bytes)])
      | .pages index reads later => .pages index (reads ++ [(subkey, bytes)]) later
      | .done result => .done result }

/-- All reads of the stage have returned. -/
def advance (reader : ForeignRead D T) : ForeignRead D T :=
  { reader with
    stage :=
      match reader.stage with
      | .indexes reads =>
        tryNext reader.recordKey reader.maximumPages (foreignIndexes reads)
      | .pages index reads later =>
        match openForeign reads index.pages with
        | some entries => .done (.ok (index, entries))
        | none => tryNext reader.recordKey reader.maximumPages later
      | .done result => .done result }

end ForeignRead

/-! ## The reader beside the owner -/

/-- The owner's store between two commits, what has landed so far of the record, the
outcome of the commit in flight, and a reader. On record are how many commits have
overlapped the read, every generation that a commit was about to write, and the contents
of those that were committed. -/
structure ForeignWorld (D T : Type) where
  owner : RecordedStore D T
  visible : Memory
  inFlight : Option (RecordedStore D T)
  reader : Option (ForeignRead D T)
  overlapping : Nat
  planned : List (Attempt D T)
  committed : List (List T)

inductive ForeignEvent (T : Type)
  | edit (event : RecordEvent T)
  | startCommit (clock : CommitClock) (transactions : List PendingCowTransaction)
      (fates : List Fate)
  | land (subkey : Subkey)
  | finishCommit
  | startRead (recordKey : String) (maximumPages : Nat)
  | read (subkey : Subkey)
  | advance

/-- An edit or a restart, but no commit. -/
def RecordEvent.isCommit : RecordEvent T → Bool
  | .commit .. => true
  | _ => false

namespace ForeignWorld

/-- The owner is exclusively borrowed by a commit in flight, so it edits and restarts
only between commits. -/
def next (config : MailboxConfig) (w : ForeignWorld D T) :
    ForeignEvent T → Option (ForeignWorld D T)
  | .edit event =>
    if w.inFlight.isSome || event.isCommit then none
    else some { w with owner := w.owner.next config event }
  | .startCommit clock transactions fates =>
    if w.inFlight.isSome then none
    else some { w with
      inFlight := some (w.owner.next config (.commit clock transactions fates))
      overlapping := w.overlapping + 1
      planned :=
        if w.owner.store.pendingChanges = 0 then w.planned
        else w.planned ++ w.owner.attempted config clock }
  | .land subkey =>
    w.inFlight.map fun after =>
      { w with visible := Function.update w.visible subkey (after.memory subkey) }
  | .finishCommit =>
    w.inFlight.map fun after => { w with
      owner := after
      visible := after.memory
      inFlight := none
      committed :=
        if w.owner.store.pendingChanges ≠ 0 ∧ after.store.pendingChanges = 0 then
          w.committed ++ [after.committed]
        else w.committed }
  | .startRead recordKey maximumPages =>
    some { w with
      reader := some { recordKey, maximumPages, stage := .indexes [] }
      overlapping := if w.inFlight.isSome then 1 else 0 }
  | .read subkey =>
    match w.reader with
    | some reader =>
      if subkey ∈ reader.missing then
        some { w with reader := some (reader.read subkey (w.visible subkey)) }
      else none
    | none => none
  | .advance =>
    match w.reader with
    | some reader =>
      if reader.missing = [] then some { w with reader := some reader.advance } else none
    | none => none

/-- The owner acts only while its generation counter has not run out. -/
def Counted (w : ForeignWorld D T) : ForeignEvent T → Prop
  | .edit _ => w.owner.CounterLeft
  | .startCommit .. => w.owner.CounterLeft
  | _ => True

end ForeignWorld

/-- A record that starts out empty, with an owner and a reader. -/
def foreignSystem (config : MailboxConfig) :
    LabelledSystem (ForeignWorld D T) (ForeignEvent T) where
  initial w := ∃ owner, (recordSystem config).initial owner ∧
    w = {
      owner
      visible := owner.memory
      inFlight := none
      reader := none
      overlapping := 0
      planned := []
      committed := [] }
  step w event w' := w.Counted event ∧ w.next config event = some w'

end VeilKnit.Mailbox
