import VeilKnit.Handshake.Bookkeeping

/-!
# What the manager forgets

Runs of the books, with any peers and any times. A message counts for the books when it comes to
the function that counts it. What a map holds after a tick is to be inside the window of the map, no
more than what came in that window, and nothing of a peer from which nothing came.

Six maps are swept by every tick. The gossip that has come in is not: its map holds every sender
that a counted message has ever named. So a tick finds the map as it should be exactly when each of
these senders has sent again inside the last minute.
-/

namespace VeilKnit.Handshake

open Library
open StreamTransport (saturatingAdd)

/-- The maps of the books that have a window. -/
inductive BookMap
  | inboundGossip
  | inboundInits
  | resetReceipts
  | resetSends
  | challengeFailures
  | quarantined
  | ignored
  deriving DecidableEq, Repr

/-- What fills the maps. -/
inductive Cause
  | gossip
  | initiation
  | resetReceived
  | resetSent
  | wrongChallenge
  deriving DecidableEq, Repr

structure Arrival where
  cause : Cause
  peer : String
  time : UInt64
  deriving DecidableEq

namespace BookMap

def window : BookMap → UInt64
  | inboundGossip => gossipRateWindowSecs
  | inboundInits => handshakeInitWindowSecs
  | resetReceipts => handshakeResetWindowSecs
  | resetSends => handshakeResetWindowSecs
  | challengeFailures => challengeFailureWindowSecs
  | quarantined => handshakeResetQuarantineSecs
  | ignored => handshakeResetAbuseIgnoreSecs

def isFilledBy : BookMap → Cause → Bool
  | inboundGossip, cause => cause = .gossip
  | inboundInits, cause => cause = .initiation
  | resetReceipts, cause => cause = .resetReceived
  | resetSends, cause => cause = .resetSent
  | challengeFailures, cause => cause = .wrongChallenge
  | quarantined, cause => cause = .resetReceived ∨ cause = .resetSent
  | ignored, cause => cause = .resetReceived ∨ cause = .resetSent

/-- The peers of a map. -/
def peers : BookMap → Books → List String
  | inboundGossip, b => b.inboundGossipAttempts.keys
  | inboundInits, b => b.inboundInitAttempts.keys
  | resetReceipts, b => b.resetReceipts.keys
  | resetSends, b => b.resetSends.keys
  | challengeFailures, b => b.challengeFailures.keys
  | quarantined, b => b.quarantinedUntil.keys
  | ignored, b => b.ignoredUntil.keys

/-- A map of times has a time of the peer in its window. -/
def HasRecent (times : Times) (window now : UInt64) (peer : String) : Prop :=
  ∃ time ∈ Stamps.of times peer, recent now window time

/-- A map of deadlines has one of the peer that is still to come. -/
def HasAhead (deadlines : AList fun _ : String => UInt64) (now : UInt64) (peer : String) : Prop :=
  ∃ deadline, deadlines.lookup peer = some deadline ∧ now < deadline

/-- The map has an entry of the peer inside its window. -/
def HasCurrent (map : BookMap) (b : Books) (now : UInt64) : String → Prop :=
  match map with
  | inboundGossip => HasRecent b.inboundGossipAttempts map.window now
  | inboundInits => HasRecent b.inboundInitAttempts map.window now
  | resetReceipts => HasRecent b.resetReceipts map.window now
  | resetSends => HasRecent b.resetSends map.window now
  | challengeFailures => HasRecent b.challengeFailures map.window now
  | quarantined => HasAhead b.quarantinedUntil now
  | ignored => HasAhead b.ignoredUntil now

/-- What of the arrivals is in the window of a map. -/
def traffic (map : BookMap) (arrivals : List Arrival) (now : UInt64) : List Arrival :=
  arrivals.filter fun arrival =>
    map.isFilledBy arrival.cause && recent now map.window arrival.time

end BookMap

/-- What is asked of a map at a time. -/
structure Remembers (map : BookMap) (b : Books) (arrivals : List Arrival) (now : UInt64) :
    Prop where
  current : ∀ peer ∈ map.peers b, map.HasCurrent b now peer
  bounded : (map.peers b).length ≤ (map.traffic arrivals now).length
  forgotten : ∀ peer, (∀ arrival ∈ map.traffic arrivals now, arrival.peer ≠ peer) →
    peer ∉ map.peers b

/-! ## Runs -/

/-- The books with all that has come, and the time of the tick that was the last step. -/
structure Memory where
  books : Books
  arrivals : List Arrival
  ticked : Option UInt64

/-- What the manager does with its books. -/
inductive Work (Secret : Type)
  | processGossipApplication (envelope : GossipApplicationEnvelope) (now : UInt64)
  | inboundInit (peer : String) (now : UInt64)
  | wrongChallenge (peer : String) (now : UInt64)
  | protocolReset (peer token : String) (session : Option (HandshakeState Secret)) (now : UInt64)
  | sendReset (peer : String) (session : Option (HandshakeState Secret)) (now : UInt64)
  | initiate (peer : String) (now : UInt64)
  | lookIgnored (peer : String) (now : UInt64)
  | lookQuarantined (peer : String) (now : UInt64)
  | tick (now : UInt64) (restarts : List (String × UInt64))

section Runs

variable {Secret : Type} (isRecordKey isBlocked : String → Bool) (ourDht : String)

/-- A gossip message counts when it passes the checks and the limits. -/
def counted (b : Books) (envelope : GossipApplicationEnvelope) (now : UInt64) : List Arrival :=
  match (b.processGossipApplication isRecordKey isBlocked ourDht envelope now).1 with
  | .ok () => if envelope.senderDht = ourDht then [] else [⟨.gossip, envelope.senderDht, now⟩]
  | .error _ => []

def Memory.step (m : Memory) : Work Secret → Memory
  | .processGossipApplication envelope now =>
    { books := (m.books.processGossipApplication isRecordKey isBlocked ourDht envelope now).2
      arrivals := m.arrivals ++ counted isRecordKey isBlocked ourDht m.books envelope now
      ticked := none }
  | .inboundInit peer now =>
    { books := (m.books.inboundInitIsExcessive peer now).2
      arrivals := m.arrivals ++ [⟨.initiation, peer, now⟩]
      ticked := none }
  | .wrongChallenge peer now =>
    { books := m.books.recordWrongChallenge peer now
      arrivals := m.arrivals ++ [⟨.wrongChallenge, peer, now⟩]
      ticked := none }
  | .protocolReset peer token session now =>
    { books := m.books.handleProtocolReset peer token session now
      arrivals := m.arrivals ++ [⟨.resetReceived, peer, now⟩]
      ticked := none }
  | .sendReset peer session now =>
    { books := m.books.sendProtocolReset peer session now
      arrivals := m.arrivals ++ [⟨.resetSent, peer, now⟩]
      ticked := none }
  | .initiate peer now =>
    { m with
      books := m.books.initiateHandshakeInternal peer now
      ticked := none }
  | .lookIgnored peer now =>
    { m with
      books := (m.books.isPeerIgnored peer now).2
      ticked := none }
  | .lookQuarantined peer now =>
    { m with
      books := (m.books.isPeerQuarantined peer now).2
      ticked := none }
  | .tick now restarts =>
    { m with
      books := m.books.tick now restarts
      ticked := some now }

/-- The books of a running manager, with any work in any order and at any times. -/
def memorySystem (Secret : Type) (isRecordKey isBlocked : String → Bool) (ourDht : String) :
    LabelledSystem Memory (Work Secret) where
  initial m := m = ⟨.new, [], none⟩
  step m work m' := m' = m.step isRecordKey isBlocked ourDht work

end Runs

/-! ## Where the entries come from -/

/-- Every time in a map is the time of an arrival. -/
def Sourced (cause : Cause) (times : Times) (arrivals : List Arrival) : Prop :=
  ∀ peer, ∀ time ∈ Stamps.of times peer, ⟨cause, peer, time⟩ ∈ arrivals

namespace Sourced

variable {cause : Cause} {times : Times} {arrivals : List Arrival} {live : UInt64 → Bool}

section

variable (h : Sourced cause times arrivals)

include h

theorem append (more : List Arrival) : Sourced cause times (arrivals ++ more) :=
  fun peer time htime => List.mem_append_left _ (h peer time htime)

variable {peer : String}

theorem insert {values : List UInt64}
    (hvalues : ∀ time ∈ values, ⟨cause, peer, time⟩ ∈ arrivals) :
    Sourced cause (times.insert peer values) arrivals := by
  intro peer' time htime
  rw [Stamps.of_insert] at htime
  split at htime
  · next heq =>
      subst heq
      exact hvalues time htime
  · exact h peer' time htime

theorem visit (peer : String) : Sourced cause (Stamps.visit live times peer) arrivals :=
  h.insert fun time htime => h peer time (Stamps.mem_of_mem_trim htime)

theorem record {now : UInt64} (harrival : ⟨cause, peer, now⟩ ∈ arrivals) :
    Sourced cause (Stamps.record live times peer now) arrivals := by
  refine h.insert fun time htime => ?_
  rcases List.mem_append.mp htime with htime | htime
  · exact h peer time (Stamps.mem_of_mem_trim htime)
  · rw [List.mem_singleton.mp htime]
    exact harrival

theorem sweep : Sourced cause (Stamps.sweep live times) arrivals := by
  intro peer time htime
  rw [Stamps.of_sweep] at htime
  exact h peer time (Stamps.mem_of_mem_trim htime)

end

end Sourced

/-- Every deadline in a map was set by a reset. -/
def DueToResets (window : UInt64) (deadlines : AList fun _ : String => UInt64)
    (arrivals : List Arrival) : Prop :=
  ∀ peer deadline, deadlines.lookup peer = some deadline →
    ∃ arrival ∈ arrivals, (arrival.cause = .resetReceived ∨ arrival.cause = .resetSent) ∧
      arrival.peer = peer ∧ deadline = saturatingAdd arrival.time window

namespace DueToResets

variable {window : UInt64} {deadlines : AList fun _ : String => UInt64} {arrivals : List Arrival}

section

variable (h : DueToResets window deadlines arrivals)

include h

theorem append (more : List Arrival) : DueToResets window deadlines (arrivals ++ more) := by
  intro peer deadline hdeadline
  obtain ⟨arrival, harrival, hset⟩ := h peer deadline hdeadline
  exact ⟨arrival, List.mem_append_left _ harrival, hset⟩

theorem insert {cause : Cause} {peer : String}
    {now : UInt64} (harrival : ⟨cause, peer, now⟩ ∈ arrivals)
    (hcause : cause = .resetReceived ∨ cause = .resetSent) :
    DueToResets window (deadlines.insert peer (saturatingAdd now window)) arrivals := by
  exact AList.forall_lookup_insert ⟨_, harrival, hcause, rfl, rfl⟩ h

/-- Fewer deadlines have no other sources. -/
theorem of_subset {fewer : AList fun _ : String => UInt64}
    (hsubset : ∀ peer deadline, fewer.lookup peer = some deadline →
      deadlines.lookup peer = some deadline) : DueToResets window fewer arrivals :=
  fun peer deadline hdeadline => h peer deadline (hsubset peer deadline hdeadline)

end

end DueToResets

/-- The second books are the first with fewer deadlines. -/
structure Thins (b b' : Books) : Prop where
  inboundGossip : b'.inboundGossipAttempts = b.inboundGossipAttempts
  inboundInits : b'.inboundInitAttempts = b.inboundInitAttempts
  resetReceipts : b'.resetReceipts = b.resetReceipts
  resetSends : b'.resetSends = b.resetSends
  challengeFailures : b'.challengeFailures = b.challengeFailures
  quarantined : ∀ peer deadline, b'.quarantinedUntil.lookup peer = some deadline →
    b.quarantinedUntil.lookup peer = some deadline
  ignored : ∀ peer deadline, b'.ignoredUntil.lookup peer = some deadline →
    b.ignoredUntil.lookup peer = some deadline

namespace Thins

variable {Secret : Type} {b b' b'' : Books} {peer : String} {now later : UInt64}

theorem refl (b : Books) : Thins b b := by
  constructor <;> intros <;> first | rfl | assumption

theorem trans (h : Thins b b') (h' : Thins b' b'') : Thins b b'' where
  inboundGossip := h'.inboundGossip.trans h.inboundGossip
  inboundInits := h'.inboundInits.trans h.inboundInits
  resetReceipts := h'.resetReceipts.trans h.resetReceipts
  resetSends := h'.resetSends.trans h.resetSends
  challengeFailures := h'.challengeFailures.trans h.challengeFailures
  quarantined := fun peer deadline hd => h.quarantined _ _ (h'.quarantined peer deadline hd)
  ignored := fun peer deadline hd => h.ignored _ _ (h'.ignored peer deadline hd)

theorem isPeerIgnored (b : Books) (peer : String) (now : UInt64) :
    Thins b (b.isPeerIgnored peer now).2 := by
  unfold Books.isPeerIgnored
  split
  · split
    · exact refl b
    · exact { refl b with ignored := fun _ _ hd => (AList.of_lookup_erase hd).2 }
  · exact refl b

theorem isPeerQuarantined (b : Books) (peer : String) (now : UInt64) :
    Thins b (b.isPeerQuarantined peer now).2 := by
  unfold Books.isPeerQuarantined
  split
  · split
    · exact refl b
    · exact { refl b with quarantined := fun _ _ hd => (AList.of_lookup_erase hd).2 }
  · exact refl b

theorem initiateHandshakeInternal (b : Books) (peer : String) (now : UInt64) :
    Thins b (b.initiateHandshakeInternal peer now) := by
  have hignored := isPeerIgnored b peer now
  unfold Books.initiateHandshakeInternal
  generalize b.isPeerIgnored peer now = look at hignored
  obtain ⟨ignored, b₁⟩ := look
  cases ignored with
  | true => exact hignored
  | false => exact hignored.trans (isPeerQuarantined b₁ peer now)

theorem scheduleRestartFromState (b : Books) (state : HandshakeState Secret) (now : UInt64) :
    Thins b (b.scheduleRestartFromState state now) := by
  unfold Books.scheduleRestartFromState
  split
  · exact refl b
  · exact { refl b with }

theorem restart (b : Books) (peer : String) (now later : UInt64) :
    Thins b (b.restart now later peer) := by
  unfold Books.restart
  split
  · exact refl b
  split
  · exact refl b
  have herased : Thins b { b with pendingRestarts := b.pendingRestarts.erase peer } :=
    { refl b with }
  have hignored := herased.trans (isPeerIgnored _ peer now)
  generalize Books.isPeerIgnored _ peer now = look at hignored
  obtain ⟨ignored, b₁⟩ := look
  cases ignored with
  | true => exact hignored
  | false =>
    have hquarantined := hignored.trans (isPeerQuarantined b₁ peer now)
    dsimp only at hquarantined ⊢
    generalize b₁.isPeerQuarantined peer now = look at hquarantined
    obtain ⟨quarantined, b₂⟩ := look
    cases quarantined with
    | true => exact hquarantined
    | false => exact hquarantined.trans (initiateHandshakeInternal b₂ peer later)

/-- After its sweeps a tick only takes deadlines away. -/
theorem tick (b : Books) (now : UInt64) (order : List (String × UInt64)) :
    Thins (b.forget now) (b.tick now order) := by
  unfold Books.tick
  generalize b.forget now = b
  induction order generalizing b with
  | nil => exact refl b
  | cons visit rest ih => exact (restart b visit.1 now visit.2).trans (ih _)

end Thins

/-- The entries of the books come from arrivals. -/
structure SourcedBy (b : Books) (arrivals : List Arrival) : Prop where
  inboundGossip : Sourced .gossip b.inboundGossipAttempts arrivals
  inboundInits : Sourced .initiation b.inboundInitAttempts arrivals
  resetReceipts : Sourced .resetReceived b.resetReceipts arrivals
  resetSends : Sourced .resetSent b.resetSends arrivals
  challengeFailures : Sourced .wrongChallenge b.challengeFailures arrivals
  quarantined : DueToResets handshakeResetQuarantineSecs b.quarantinedUntil arrivals
  ignored : DueToResets handshakeResetAbuseIgnoreSecs b.ignoredUntil arrivals

namespace SourcedBy

variable {Secret : Type} {b b' : Books} {arrivals : List Arrival} {peer : String} {now : UInt64}

theorem new : SourcedBy .new [] := by
  constructor <;> intro peer value hvalue <;> cases hvalue

theorem append (h : SourcedBy b arrivals) (more : List Arrival) :
    SourcedBy b (arrivals ++ more) where
  inboundGossip := h.inboundGossip.append more
  inboundInits := h.inboundInits.append more
  resetReceipts := h.resetReceipts.append more
  resetSends := h.resetSends.append more
  challengeFailures := h.challengeFailures.append more
  quarantined := h.quarantined.append more
  ignored := h.ignored.append more

theorem of_thins (h : SourcedBy b arrivals) (hthins : Thins b b') : SourcedBy b' arrivals where
  inboundGossip := hthins.inboundGossip ▸ h.inboundGossip
  inboundInits := hthins.inboundInits ▸ h.inboundInits
  resetReceipts := hthins.resetReceipts ▸ h.resetReceipts
  resetSends := hthins.resetSends ▸ h.resetSends
  challengeFailures := hthins.challengeFailures ▸ h.challengeFailures
  quarantined := h.quarantined.of_subset hthins.quarantined
  ignored := h.ignored.of_subset hthins.ignored

/-- The second books have the gossip of the first, and all of their entries come from arrivals. -/
structure Next (b : Books) (arrivals : List Arrival) (b' : Books) : Prop where
  sourced : SourcedBy b' arrivals
  gossip : b'.inboundGossipAttempts = b.inboundGossipAttempts

theorem inboundInitIsExcessive (h : SourcedBy b arrivals)
    (harrival : ⟨.initiation, peer, now⟩ ∈ arrivals) :
    Next b arrivals (b.inboundInitIsExcessive peer now).2 := by
  have hrecorded : Sourced .initiation (Stamps.record (recent now handshakeInitWindowSecs)
      b.inboundInitAttempts peer now) arrivals := h.inboundInits.record harrival
  unfold Books.inboundInitIsExcessive
  dsimp only
  split
  · exact ⟨{ h with inboundInits := hrecorded }, rfl⟩
  · split
    · exact ⟨{ h with inboundInits := hrecorded }, rfl⟩
    · exact ⟨{ h with inboundInits := hrecorded }, rfl⟩

theorem recordWrongChallenge (h : SourcedBy b arrivals)
    (harrival : ⟨.wrongChallenge, peer, now⟩ ∈ arrivals) :
    Next b arrivals (b.recordWrongChallenge peer now) :=
  ⟨{ h with challengeFailures := h.challengeFailures.record harrival }, rfl⟩

theorem scheduleRestartFromState (h : Next b arrivals b') (state : HandshakeState Secret) :
    Next b arrivals (b'.scheduleRestartFromState state now) :=
  have hthins := Thins.scheduleRestartFromState b' state now
  ⟨h.sourced.of_thins hthins, hthins.inboundGossip.trans h.gossip⟩

theorem sendProtocolReset (h : SourcedBy b arrivals) (session : Option (HandshakeState Secret))
    (harrival : ⟨.resetSent, peer, now⟩ ∈ arrivals) :
    Next b arrivals (b.sendProtocolReset peer session now) := by
  have hvisited : Sourced .resetSent (Stamps.visit (recent now handshakeResetWindowSecs)
      b.resetSends peer) arrivals := h.resetSends.visit peer
  unfold Books.sendProtocolReset
  dsimp only
  split
  · exact ⟨{ h with
      resetSends := hvisited
      ignored := h.ignored.insert harrival (.inr rfl) }, rfl⟩
  split
  · exact ⟨{ h with resetSends := hvisited }, rfl⟩
  refine scheduleRestartFromState ⟨?_, ?gossip⟩ _
  case gossip => rfl
  refine { h with
    resetSends := hvisited.insert fun time htime => ?_
    quarantined := h.quarantined.insert harrival (.inr rfl) }
  rcases List.mem_append.mp htime with htime | htime
  · exact hvisited peer time htime
  · rw [List.mem_singleton.mp htime]
    exact harrival

theorem acceptReset (h : SourcedBy b arrivals) (restart : Option (HandshakeState Secret))
    (harrival : ⟨.resetReceived, peer, now⟩ ∈ arrivals) :
    Next b arrivals (b.acceptReset peer restart now) := by
  have hrecorded : Sourced .resetReceived (Stamps.record (recent now handshakeResetWindowSecs)
      b.resetReceipts peer now) arrivals := h.resetReceipts.record harrival
  unfold Books.acceptReset
  dsimp only
  split
  · exact ⟨{ h with
      resetReceipts := hrecorded
      ignored := h.ignored.insert harrival (.inl rfl) }, rfl⟩
  have hquarantined := h.quarantined.insert harrival (.inl rfl)
  cases restart with
  | none => exact ⟨{ h with resetReceipts := hrecorded, quarantined := hquarantined }, rfl⟩
  | some state =>
    refine scheduleRestartFromState ⟨?_, ?gossip⟩ state
    case gossip => rfl
    exact { h with resetReceipts := hrecorded, quarantined := hquarantined }

theorem handleProtocolReset (h : SourcedBy b arrivals) (token : String)
    (session : Option (HandshakeState Secret)) (harrival : ⟨.resetReceived, peer, now⟩ ∈ arrivals) :
    Next b arrivals (b.handleProtocolReset peer token session now) := by
  unfold Books.handleProtocolReset
  split
  · split
    · refine ⟨(acceptReset ?_ _ harrival).sourced, (acceptReset ?_ _ harrival).gossip⟩ <;>
        exact { h with }
    · exact ⟨h, rfl⟩
  · split
    · exact h.acceptReset _ harrival
    · exact ⟨h, rfl⟩

theorem forget (h : SourcedBy b arrivals) (now : UInt64) : SourcedBy (b.forget now) arrivals where
  inboundGossip := h.inboundGossip
  inboundInits := h.inboundInits.sweep
  resetReceipts := h.resetReceipts.sweep
  resetSends := h.resetSends.sweep
  challengeFailures := h.challengeFailures.sweep
  quarantined := h.quarantined.of_subset fun _ _ hdeadline =>
    (AList.lookup_filterEntries_eq_some.mp hdeadline).2
  ignored := h.ignored.of_subset fun _ _ hdeadline =>
    (AList.lookup_filterEntries_eq_some.mp hdeadline).2

end SourcedBy

/-! ## The gossip that has come in -/

theorem toNat_saturatingAdd (a b : UInt64) :
    (saturatingAdd a b).toNat = min (a.toNat + b.toNat) (2 ^ 64 - 1) := by
  unfold Mailbox.saturatingAdd
  split
  · next hsum =>
      rw [UInt64.toNat_add, Nat.mod_eq_of_lt hsum]
      omega
  · next hsum =>
      rw [UInt64.toNat_ofNat_of_lt' (by decide)]
      omega

/-- A time whose window has passed is no later than now. -/
theorem le_of_not_recent {now window time : UInt64} (h : recent now window time = false) :
    time ≤ now := by
  have hpassed : ¬ now < saturatingAdd time window := by simpa [recent] using h
  have htime := time.toNat_lt
  rw [UInt64.lt_iff_toNat_lt, toNat_saturatingAdd] at hpassed
  rw [UInt64.le_iff_toNat_le]
  omega

/-- What is no later than a time whose window has passed is not recent either. -/
theorem recent_mono {now window time later : UInt64} (h : recent now window time)
    (hle : time ≤ later) : recent now window later := by
  have hopen : now < saturatingAdd time window := by simpa [recent] using h
  have hafter : now < saturatingAdd later window := by
    rw [UInt64.le_iff_toNat_le] at hle
    rw [UInt64.lt_iff_toNat_lt, toNat_saturatingAdd] at hopen ⊢
    omega
  simpa [recent] using hafter

/-- What the two limits do with the books. -/
theorem admitGossip_cases (b : Books) (sender : String) (now : UInt64) :
    (∃ e global, b.admitGossip sender now =
        (.error e, { b with inboundGossipGlobalAttempts := global })) ∨
      (∃ e global, Stamps.trim (recent now gossipRateWindowSecs)
          (Stamps.of b.inboundGossipAttempts sender) ≠ [] ∧
        b.admitGossip sender now = (.error e,
          { b with
            inboundGossipGlobalAttempts := global
            inboundGossipAttempts :=
              Stamps.visit (recent now gossipRateWindowSecs) b.inboundGossipAttempts sender })) ∨
      ∃ global, b.admitGossip sender now = (.ok (),
        { b with
          inboundGossipGlobalAttempts := global
          inboundGossipAttempts :=
            Stamps.record (recent now gossipRateWindowSecs) b.inboundGossipAttempts sender now }) := by
  unfold Books.admitGossip
  dsimp only
  split
  · exact .inl ⟨_, _, rfl⟩
  rw [Stamps.of_visit, if_pos rfl]
  split
  · next hmany =>
      refine .inr (.inl ⟨_, _, ?_, rfl⟩)
      rintro hnil
      rw [hnil] at hmany
      exact absurd hmany (by decide)
  · refine .inr (.inr ⟨Stamps.trim (recent now gossipRateWindowSecs)
      b.inboundGossipGlobalAttempts ++ [now], ?_⟩)
    rw [Stamps.visit, AList.insert_insert]
    rfl

/-- A message that the checks refuse, one of our own, or one that comes to the limits. -/
theorem processGossipApplication_cases (isRecordKey isBlocked : String → Bool) (ourDht : String)
    (b : Books) (envelope : GossipApplicationEnvelope) (now : UInt64) :
    (∃ e, b.processGossipApplication isRecordKey isBlocked ourDht envelope now = (.error e, b)) ∨
      (envelope.senderDht = ourDht ∧
        b.processGossipApplication isRecordKey isBlocked ourDht envelope now = (.ok (), b)) ∨
      (envelope.senderDht ≠ ourDht ∧
        b.processGossipApplication isRecordKey isBlocked ourDht envelope now =
          b.admitGossip envelope.senderDht now) := by
  unfold Books.processGossipApplication
  dsimp only
  split_ifs <;> first
    | exact .inl ⟨_, rfl⟩
    | exact .inr (.inl ⟨by assumption, rfl⟩)
    | exact .inr (.inr ⟨by assumption, rfl⟩)

/-- Every sender that a counted message has named is in the map, with a time that is no earlier
than the message. -/
structure KeepsSenders (times : Times) (arrivals : List Arrival) : Prop where
  nonempty : ∀ peer ∈ times, Stamps.of times peer ≠ []
  latest : ∀ peer time, ⟨.gossip, peer, time⟩ ∈ arrivals →
    ∃ later ∈ Stamps.of times peer, time ≤ later

namespace KeepsSenders

variable {times : Times} {arrivals : List Arrival} {sender : String} {now : UInt64}

theorem append (h : KeepsSenders times arrivals) {more : List Arrival}
    (hmore : ∀ arrival ∈ more, arrival.cause ≠ .gossip) :
    KeepsSenders times (arrivals ++ more) where
  nonempty := h.nonempty
  latest peer time harrival := by
    rcases List.mem_append.mp harrival with harrival | harrival
    · exact h.latest peer time harrival
    · exact absurd rfl (hmore _ harrival)

/-- A message over the limit of its sender. The times that go are before the first that stays. -/
theorem visit (h : KeepsSenders times arrivals)
    (hleft : Stamps.trim (recent now gossipRateWindowSecs) (Stamps.of times sender) ≠ []) :
    KeepsSenders (Stamps.visit (recent now gossipRateWindowSecs) times sender) arrivals where
  nonempty peer hpeer := by
    rw [Stamps.of_visit]
    split
    · exact hleft
    · next hne =>
        rw [Stamps.visit, AList.mem_insert] at hpeer
        exact h.nonempty peer (hpeer.resolve_left hne)
  latest peer time harrival := by
    obtain ⟨later, hlater, hle⟩ := h.latest peer time harrival
    rw [Stamps.of_visit]
    split
    · next heq =>
        subst heq
        rcases @Stamps.mem_trim_or _ (recent now gossipRateWindowSecs) _ _ hlater
          with hkept | hgone
        · exact ⟨later, hkept, hle⟩
        · obtain ⟨first, rest, hfirst, hlive⟩ := Stamps.exists_trim_eq_cons hleft
          refine ⟨first, by rw [hfirst]; exact List.mem_cons_self, UInt64.le_trans hle ?_⟩
          rcases UInt64.le_total later first with hbefore | hafter
          · exact hbefore
          · exact absurd (recent_mono hlive hafter) (by simp [hgone])
    · exact ⟨later, hlater, hle⟩

theorem record (h : KeepsSenders times arrivals) :
    KeepsSenders (Stamps.record (recent now gossipRateWindowSecs) times sender now)
      (arrivals ++ [⟨.gossip, sender, now⟩]) where
  nonempty peer hpeer := by
    rw [Stamps.of_record]
    split
    · simp
    · next hne =>
        rw [Stamps.record, AList.mem_insert] at hpeer
        exact h.nonempty peer (hpeer.resolve_left hne)
  latest peer time harrival := by
    rw [Stamps.of_record]
    rcases List.mem_append.mp harrival with harrival | harrival
    · obtain ⟨later, hlater, hle⟩ := h.latest peer time harrival
      split
      · next heq =>
          subst heq
          rcases @Stamps.mem_trim_or _ (recent now gossipRateWindowSecs) _ _ hlater
            with hkept | hgone
          · exact ⟨later, List.mem_append_left _ hkept, hle⟩
          · exact ⟨now, by simp, UInt64.le_trans hle (le_of_not_recent hgone)⟩
      · exact ⟨later, hlater, hle⟩
    · cases List.mem_singleton.mp harrival
      rw [if_pos rfl]
      exact ⟨now, by simp, UInt64.le_refl now⟩

end KeepsSenders

/-- What holds of the books in every run. -/
structure Memory.Sound (m : Memory) : Prop where
  sourced : SourcedBy m.books m.arrivals
  senders : KeepsSenders m.books.inboundGossipAttempts m.arrivals

section Runs

variable {Secret : Type} {isRecordKey isBlocked : String → Bool} {ourDht : String} {m : Memory}

/-- A gossip message keeps what holds. -/
theorem Memory.Sound.gossip (h : m.Sound) (envelope : GossipApplicationEnvelope) (now : UInt64) :
    (m.step isRecordKey isBlocked ourDht
      (.processGossipApplication envelope now : Work Secret)).Sound := by
  have hcases := processGossipApplication_cases isRecordKey isBlocked ourDht m.books envelope now
  unfold Memory.step counted
  rcases hcases with ⟨e, hrefused⟩ | ⟨hours, hdone⟩ | ⟨htheirs, hlimited⟩
  · simp only [hrefused, List.append_nil]
    exact ⟨h.sourced, h.senders⟩
  · simp only [hdone, if_pos hours, List.append_nil]
    exact ⟨h.sourced, h.senders⟩
  rcases admitGossip_cases m.books envelope.senderDht now with
    ⟨e, global, hfull⟩ | ⟨e, global, hleft, hover⟩ | ⟨global, hok⟩
  · simp only [hlimited, hfull, List.append_nil]
    exact ⟨{ h.sourced with }, h.senders⟩
  · simp only [hlimited, hover, List.append_nil]
    exact ⟨{ h.sourced with inboundGossip := h.sourced.inboundGossip.visit _ },
      h.senders.visit hleft⟩
  · simp only [hlimited, hok, if_neg htheirs]
    have hmore := h.sourced.append [⟨.gossip, envelope.senderDht, now⟩]
    exact ⟨{ hmore with inboundGossip := hmore.inboundGossip.record (by simp) }, h.senders.record⟩

variable {now : UInt64}

theorem Memory.of_step_ticked {work : Work Secret}
    (h : (m.step isRecordKey isBlocked ourDht work).ticked = some now) :
    ∃ restarts, work = .tick now restarts := by
  cases work <;> cases h
  exact ⟨_, rfl⟩

variable {books b : Books}

theorem Memory.Sound.of_thins (h : m.Sound) (hthins : Thins m.books books)
    (ticked : Option UInt64) : (⟨books, m.arrivals, ticked⟩ : Memory).Sound :=
  ⟨h.sourced.of_thins hthins, hthins.inboundGossip ▸ h.senders⟩

variable {arrival : Arrival}

/-- An arrival of another cause keeps what holds. -/
theorem Memory.Sound.of_next (h : m.Sound)
    (hnext : SourcedBy.Next m.books (m.arrivals ++ [arrival]) books)
    (hcause : arrival.cause ≠ .gossip) : (⟨books, m.arrivals ++ [arrival], none⟩ : Memory).Sound :=
  ⟨hnext.sourced, hnext.gossip.symm ▸ h.senders.append (by simpa using hcause)⟩

theorem Memory.Sound.step (h : m.Sound) (work : Work Secret) :
    (m.step isRecordKey isBlocked ourDht work).Sound := by
  cases work with
  | processGossipApplication envelope now => exact h.gossip envelope now
  | inboundInit peer now =>
    exact h.of_next ((h.sourced.append _).inboundInitIsExcessive (by simp)) nofun
  | wrongChallenge peer now =>
    exact h.of_next ((h.sourced.append _).recordWrongChallenge (by simp)) nofun
  | protocolReset peer token session now =>
    exact h.of_next ((h.sourced.append _).handleProtocolReset token session (by simp)) nofun
  | sendReset peer session now =>
    exact h.of_next ((h.sourced.append _).sendProtocolReset session (by simp)) nofun
  | initiate peer now => exact h.of_thins (Thins.initiateHandshakeInternal ..) none
  | lookIgnored peer now => exact h.of_thins (Thins.isPeerIgnored ..) none
  | lookQuarantined peer now => exact h.of_thins (Thins.isPeerQuarantined ..) none
  | tick now restarts =>
    have hthins := Thins.tick m.books now restarts
    exact ⟨(h.sourced.forget now).of_thins hthins, hthins.inboundGossip ▸ h.senders⟩

theorem sound_of_reachable
    (reached : (memorySystem Secret isRecordKey isBlocked ourDht).Reachable m) : m.Sound := by
  have hinvariant : (memorySystem Secret isRecordKey isBlocked ourDht).Invariant Memory.Sound := by
    constructor
    · rintro _ rfl
      refine ⟨SourcedBy.new, ?_, ?_⟩
      · intro peer hpeer
        cases hpeer
      · intro peer time harrival
        cases harrival
    · rintro m work _ h rfl
      exact h.step work
  exact hinvariant.holds reached

/-! ## After a tick -/

variable {map : BookMap} {arrivals : List Arrival}

/-- Entries inside the window that come from arrivals inside the window are all that is asked. -/
theorem Remembers.of_sources (hcurrent : ∀ peer ∈ map.peers b, map.HasCurrent b now peer)
    (hsources : ∀ peer ∈ map.peers b, ∃ arrival ∈ map.traffic arrivals now, arrival.peer = peer) :
    Remembers map b arrivals now where
  current := hcurrent
  bounded := by
    refine length_le_of_events ?_ hsources
    cases map <;> exact AList.keys_nodup _
  forgotten peer hnone hpeer := by
    obtain ⟨arrival, harrival, heq⟩ := hsources peer hpeer
    exact hnone arrival harrival heq

theorem mem_traffic : arrival ∈ map.traffic arrivals now ↔ arrival ∈ arrivals ∧
      map.isFilledBy arrival.cause ∧ recent now map.window arrival.time := by
  simp [BookMap.traffic]

variable {peer : String}

/-- The recent times of a map are traffic. -/
theorem Sourced.exists_traffic {cause : Cause} {times : Times}
    (h : Sourced cause times arrivals) (hmap : map.isFilledBy cause)
    (hrecent : BookMap.HasRecent times map.window now peer) :
    ∃ arrival ∈ map.traffic arrivals now, arrival.peer = peer := by
  obtain ⟨time, htime, hlive⟩ := hrecent
  exact ⟨⟨cause, peer, time⟩, mem_traffic.mpr ⟨h peer time htime, hmap, hlive⟩, rfl⟩

theorem DueToResets.exists_traffic {window : UInt64} {deadlines : AList fun _ : String => UInt64}
    (h : DueToResets window deadlines arrivals)
    (hmap : ∀ cause, cause = .resetReceived ∨ cause = .resetSent → map.isFilledBy cause)
    (hwindow : map.window = window) (hahead : BookMap.HasAhead deadlines now peer) :
    ∃ arrival ∈ map.traffic arrivals now, arrival.peer = peer := by
  obtain ⟨deadline, hdeadline, hnow⟩ := hahead
  obtain ⟨arrival, harrival, hcause, hpeer, rfl⟩ := h peer deadline hdeadline
  refine ⟨arrival, mem_traffic.mpr ⟨harrival, hmap _ hcause, ?_⟩, hpeer⟩
  rw [hwindow]
  exact decide_eq_true hnow

/-- A sweep leaves what is recent. -/
theorem hasRecent_of_sweep {times swept : Times} {window : UInt64}
    (hswept : swept = Stamps.sweep (recent now window) times) (h : peer ∈ swept.keys) :
    BookMap.HasRecent swept window now peer := by
  subst hswept
  exact Stamps.exists_live_of_mem_sweep (AList.mem_keys.mp h)

/-- The deadlines that a sweep leaves are ahead. -/
theorem hasAhead_of_filter {deadlines fewer : AList fun _ : String => UInt64}
    (hfewer : ∀ peer deadline, fewer.lookup peer = some deadline →
      (deadlines.filterEntries fun _ deadline => now < deadline).lookup peer = some deadline)
    (h : peer ∈ fewer.keys) : BookMap.HasAhead fewer now peer := by
  obtain ⟨deadline, hdeadline⟩ :=
    Option.isSome_iff_exists.mp (AList.lookup_isSome.mpr (AList.mem_keys.mp h))
  obtain ⟨hahead, -⟩ := AList.lookup_filterEntries_eq_some.mp (hfewer peer deadline hdeadline)
  exact ⟨deadline, hdeadline, of_decide_eq_true hahead⟩

/-- After a tick a peer of a map that the tick sweeps has a current entry. -/
theorem hasCurrent_tick (b : Books) (now : UInt64) (restarts : List (String × UInt64))
    (hmap : map ≠ .inboundGossip) (hpeer : peer ∈ map.peers (b.tick now restarts)) :
    map.HasCurrent (b.tick now restarts) now peer := by
  have hthins := Thins.tick b now restarts
  cases map with
  | inboundGossip => exact absurd rfl hmap
  | inboundInits => exact hasRecent_of_sweep hthins.inboundInits hpeer
  | resetReceipts => exact hasRecent_of_sweep hthins.resetReceipts hpeer
  | resetSends => exact hasRecent_of_sweep hthins.resetSends hpeer
  | challengeFailures => exact hasRecent_of_sweep hthins.challengeFailures hpeer
  | quarantined => exact hasAhead_of_filter hthins.quarantined hpeer
  | ignored => exact hasAhead_of_filter hthins.ignored hpeer

/-- Current entries come from the traffic of the window. -/
theorem SourcedBy.exists_traffic (h : SourcedBy b arrivals) (hcurrent : map.HasCurrent b now peer) :
    ∃ arrival ∈ map.traffic arrivals now, arrival.peer = peer := by
  cases map with
  | inboundGossip => exact h.inboundGossip.exists_traffic rfl hcurrent
  | inboundInits => exact h.inboundInits.exists_traffic rfl hcurrent
  | resetReceipts => exact h.resetReceipts.exists_traffic rfl hcurrent
  | resetSends => exact h.resetSends.exists_traffic rfl hcurrent
  | challengeFailures => exact h.challengeFailures.exists_traffic rfl hcurrent
  | quarantined => exact h.quarantined.exists_traffic (fun _ => decide_eq_true) rfl hcurrent
  | ignored => exact h.ignored.exists_traffic (fun _ => decide_eq_true) rfl hcurrent

/-- Every sender that a counted gossip message has named has sent one inside the last minute. -/
def SendersAreRecent (arrivals : List Arrival) (now : UInt64) : Prop :=
  ∀ arrival ∈ arrivals, arrival.cause = .gossip →
    ∃ latest ∈ BookMap.inboundGossip.traffic arrivals now, latest.peer = arrival.peer

instance (arrivals : List Arrival) (now : UInt64) : Decidable (SendersAreRecent arrivals now) :=
  inferInstanceAs (Decidable (∀ _ ∈ _, _ → _))

/-- After a tick every other map is as it should be. -/
theorem Memory.Sound.remembers_tick (h : m.Sound) (now : UInt64)
    (restarts : List (String × UInt64)) (hmap : map ≠ .inboundGossip) :
    Remembers map (m.books.tick now restarts) m.arrivals now := by
  have hcurrent := fun peer => @hasCurrent_tick map peer m.books now restarts hmap
  have hsourced := (h.sourced.forget now).of_thins (Thins.tick m.books now restarts)
  exact .of_sources hcurrent fun peer hpeer => hsourced.exists_traffic (hcurrent peer hpeer)

/-- The map of the gossip is as it should be when its senders are recent, and only then. -/
theorem Memory.Sound.remembers_gossip_iff (h : m.Sound) (now : UInt64)
    (restarts : List (String × UInt64)) :
    Remembers .inboundGossip (m.books.tick now restarts) m.arrivals now ↔
      SendersAreRecent m.arrivals now := by
  have hthins := Thins.tick m.books now restarts
  have hgossip : (m.books.tick now restarts).inboundGossipAttempts = m.books.inboundGossipAttempts :=
    hthins.inboundGossip
  have hsourced := (h.sourced.forget now).of_thins hthins
  constructor
  · intro hremembers arrival harrival hcause
    obtain ⟨cause, peer, time⟩ := arrival
    obtain rfl : cause = .gossip := hcause
    -- the sender of a counted message never leaves the map
    obtain ⟨later, hlater, -⟩ := h.senders.latest peer time harrival
    have hpeer : peer ∈ BookMap.inboundGossip.peers (m.books.tick now restarts) := by
      dsimp only [BookMap.peers]
      rw [hgossip]
      exact AList.mem_keys.mpr (Stamps.mem_of_mem_of hlater)
    exact hsourced.exists_traffic (hremembers.current peer hpeer)
  intro hrecent
  have hcurrent : ∀ peer ∈ BookMap.inboundGossip.peers (m.books.tick now restarts),
      BookMap.inboundGossip.HasCurrent (m.books.tick now restarts) now peer := by
    intro peer hpeer
    dsimp only [BookMap.peers, BookMap.HasCurrent] at hpeer ⊢
    rw [hgossip] at hpeer ⊢
    obtain ⟨first, hfirst⟩ :=
      List.exists_mem_of_ne_nil _ (h.senders.nonempty peer (AList.mem_keys.mp hpeer))
    obtain ⟨⟨cause, sender, time⟩, hlatest, rfl⟩ :=
      hrecent _ (h.sourced.inboundGossip peer first hfirst) rfl
    obtain ⟨harrival, hcause, hlive⟩ := mem_traffic.mp hlatest
    obtain rfl : cause = .gossip := of_decide_eq_true hcause
    obtain ⟨later, hlater, hle⟩ := h.senders.latest sender time harrival
    exact ⟨later, hlater, recent_mono hlive hle⟩
  exact .of_sources hcurrent fun peer hpeer => hsourced.exists_traffic (hcurrent peer hpeer)

/-- The ticks that find the senders recent, and all other work. -/
def SendersGuard (m : Memory) : Work Secret → Prop
  | .tick now _ => SendersAreRecent m.arrivals now
  | _ => True

/-- Where every tick finds the senders recent, every map is as it should be after every tick. A tick
leaves all maps as they should be exactly when it finds the senders recent, and the maps that it
sweeps always. -/
theorem peers_are_forgotten (Secret : Type) (isRecordKey isBlocked : String → Bool)
    (ourDht : String) :
    (∀ m, ((memorySystem Secret isRecordKey isBlocked ourDht).restrict SendersGuard).Reachable m →
      ∀ now, m.ticked = some now → ∀ map, Remembers map m.books m.arrivals now) ∧
    ∀ m, (memorySystem Secret isRecordKey isBlocked ourDht).Reachable m → ∀ now restarts,
        ((∀ map, Remembers map (m.books.tick now restarts) m.arrivals now) ↔
          SendersAreRecent m.arrivals now) ∧
        ∀ map, map ≠ .inboundGossip → Remembers map (m.books.tick now restarts) m.arrivals now := by
  have hall : ∀ m : Memory, m.Sound → ∀ now restarts, SendersAreRecent m.arrivals now →
      ∀ map, Remembers map (m.books.tick now restarts) m.arrivals now := by
    intro m hm now restarts hrecent map
    by_cases hmap : map = .inboundGossip
    · exact hmap ▸ (hm.remembers_gossip_iff now restarts).mpr hrecent
    · exact hm.remembers_tick now restarts hmap
  refine ⟨fun m reached => ?_, fun m reached now restarts => ?_⟩
  · cases reached with
    | start hinit =>
      obtain rfl := hinit
      intro now hticked
      cases hticked
    | next work hprev hstep =>
      obtain ⟨hguard, rfl⟩ := hstep
      intro now hticked
      obtain ⟨restarts, rfl⟩ := Memory.of_step_ticked hticked
      exact hall _ (sound_of_reachable hprev.of_restrict) now restarts hguard
  · have hsound := sound_of_reachable reached
    refine ⟨⟨fun h => ?_, hall m hsound now restarts⟩, fun map => ?_⟩
    · exact (hsound.remembers_gossip_iff now restarts).mp (h .inboundGossip)
    · exact hsound.remembers_tick now restarts

end Runs

namespace BookSample

def gossipFrom (sender : String) (sentAt : UInt64) : GossipApplicationEnvelope :=
  ⟨1, "app", [], sender, sentAt, []⟩

def isRecordKey (_ : String) : Bool := true

def isBlocked (_ : String) : Bool := false

/-- The books after some work. -/
def after (works : List (Work Unit)) : Memory :=
  works.foldl (Memory.step isRecordKey isBlocked "us") ⟨.new, [], none⟩

theorem reachable_after (works : List (Work Unit)) :
    (memorySystem Unit isRecordKey isBlocked "us").Reachable (after works) :=
  .foldl (fun _ _ _ => rfl) (.start rfl)

/-- One message with a name that nobody uses again stays over a tick that comes an hour later. -/
theorem forged_sender_stays :
    ∃ m, (memorySystem Unit isRecordKey isBlocked "us").Reachable m ∧ m.ticked = some 4600 ∧
      ¬ Remembers .inboundGossip m.books m.arrivals 4600 := by
  refine ⟨after [.processGossipApplication (gossipFrom "forged" 1000) 1000, .tick 4600 []],
    reachable_after _, by decide +kernel, fun h => ?_⟩
  refine h.forgotten "forged" (fun arrival harrival => ?_) (by decide +kernel)
  have hnone : BookMap.inboundGossip.traffic
      (after [.processGossipApplication (gossipFrom "forged" 1000) 1000, .tick 4600 []]).arrivals
      4600 = [] := by decide +kernel
  rw [hnone] at harrival
  cases harrival

/-- A sender that goes on sending, and another that has sent a wrong challenge. -/
def messages : List (Work Unit) :=
  [.processGossipApplication (gossipFrom "a" 1000) 1000, .wrongChallenge "b" 1010,
    .processGossipApplication (gossipFrom "a" 1050) 1050]

def minute : Work Unit := .tick 1080 []

theorem peers_are_forgotten_sample :
    (∀ map, Remembers map (after (messages ++ [minute])).books (after messages).arrivals 1080) ∧
      ∀ map, map ≠ .inboundGossip →
        Remembers map ((after messages).books.tick 90000 []) (after messages).arrivals 90000 := by
  have hforgotten := peers_are_forgotten Unit isRecordKey isBlocked "us"
  have hmessages : ((memorySystem Unit isRecordKey isBlocked "us").restrict SendersGuard).Reachable
      (after messages) := by
    refine .foldl (fun m work hwork => ⟨?_, rfl⟩) (.start rfl)
    rcases hwork with _ | ⟨_, _ | ⟨_, _ | ⟨_, hwork⟩⟩⟩
    · trivial
    · trivial
    · trivial
    · cases hwork
  have hguard : SendersAreRecent (after messages).arrivals 1080 := by decide +kernel
  have hstep : after (messages ++ [minute]) = (after messages).step isRecordKey isBlocked "us" minute :=
    List.foldl_append
  exact ⟨hforgotten.1 (after (messages ++ [minute])) (hmessages.next minute ⟨hguard, hstep⟩) 1080
      (by rw [hstep]; rfl),
    (hforgotten.2 _ (reachable_after messages) 90000 []).2⟩

end BookSample

end VeilKnit.Handshake
