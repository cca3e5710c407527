import VeilKnit.Handshake.Exchange
import VeilKnit.Handshake.Wire
import VeilKnit.Library.LabelledSystem

/-!
# Limits on sessions

A node bounds its pending sessions of either side, its established sessions and all of its
sessions. The bounds are checked where a session begins. A type 1 that takes the place of a
session the node already holds is not checked against the inbound bound, and a handshake that
completes is not checked against the bound of established sessions; everything else keeps the
bounds.
-/

namespace VeilKnit.Handshake

open Library

variable {Secret : Type}

/-- The four bounds. -/
structure WithinLimits (m : Manager Secret) : Prop where
  inbound : m.pendingCount false ≤ maxPendingInboundHandshakes
  outbound : m.pendingCount true ≤ maxPendingOutboundHandshakes
  established : m.establishedCount ≤ maxEstablishedHandshakes
  total : m.totalCount ≤ maxTotalSessions

section Conditions

variable (prim : Primitives Secret) (ans : Answers Secret) (p : Process Secret)
  (msg : HandshakeMessage)

/-- A type 1 that is answered and takes the place of a session. -/
structure Displaces : Prop where
  type : msg.messageType = 1
  admitted : Admitted ans p msg
  rate : (inboundInitIsExcessive prim msg.senderDht (ans.clock 0) p).1 = false
  established : p.manager.establishedCount < maxEstablishedHandshakes
  total : p.manager.totalCount < maxTotalSessions
  held : ∃ s, p.session msg.senderDht = some s ∧ givesWay msg s = false
  answered : ∃ shared theirChallenge blob bytes,
    acceptInit prim (ans.ephemeralSecret msg.senderDht) msg = .ok (shared, theirChallenge) ∧
    ans.fetchRouteBlob msg.senderDht = .ok blob ∧
    encodeHandshakeMessage (welcomeAnswer prim ans p.manager.ourDht msg shared theirChallenge) =
      .ok bytes ∧
    ans.appMessage blob bytes = .ok ()

/-- A type 2 or type 3 that completes a handshake. -/
inductive Completes : Prop
  | reply {s : HandshakeState Secret} {parts : WelcomeReplyParts Secret} {route bytes : Bytes}
      (type : msg.messageType = 2) (admitted : Admitted ans p msg)
      (session : p.session msg.senderDht = some s)
      (accepted : AcceptsReply prim p.manager.ourDht s msg parts) (hroute : s.route = some route)
      (encoded : encodeHandshakeMessage (finalAnswer prim ans p.manager.ourDht s msg parts) =
        .ok bytes)
      (delivered : ans.appMessage route bytes = .ok ())
  | final {s : HandshakeState Secret} (type : msg.messageType = 3) (admitted : Admitted ans p msg)
      (session : p.session msg.senderDht = some s)
      (accepted : checkFinal prim p.manager.ourDht s msg = .ok ())

end Conditions

/-- A message that displaces a session finds room among the inbound ones, and one that
completes a handshake finds room among the established ones. -/
structure LeavesRoom (prim : Primitives Secret) (ans : Answers Secret) (p : Process Secret)
    (incoming : Option (HandshakeMessage × Bytes)) : Prop where
  displaced : ∀ msg raw, incoming = some (msg, raw) → Displaces prim ans p msg →
    p.manager.pendingCount false < maxPendingInboundHandshakes
  completed : ∀ msg raw, incoming = some (msg, raw) → Completes prim ans p msg →
    p.manager.establishedCount < maxEstablishedHandshakes

/-! ## Counts under moves -/

variable {prim : Primitives Secret} {direct : DirectPrimitives} {ans : Answers Secret}
  {incoming : Option (HandshakeMessage × Bytes)} {start p : Process Secret}

/-- A class of sessions that touching a session does not lead into. -/
def ClosedClass (f : HandshakeState Secret → Bool) : Prop :=
  ∀ s t, Touched s t → f t = true → f s = true

theorem closedClass_pending (isInitiator : Bool) :
    ClosedClass (Manager.isPendingOn isInitiator : HandshakeState Secret → Bool) := by
  intro s t h ht
  simp only [Manager.isPendingOn, Bool.and_eq_true, beq_iff_eq, bne_iff_ne, h.isInitiator] at ht ⊢
  refine ⟨ht.1, fun hs => ?_⟩
  rcases h.status with hsame | ⟨hne, -⟩
  · exact ht.2 (hsame.trans hs)
  · exact hne hs

theorem closedClass_established :
    ClosedClass ((·.status == .established) : HandshakeState Secret → Bool) := by
  intro s t h ht
  simp only [beq_iff_eq] at ht ⊢
  rcases h.status with hsame | ⟨-, hfailed⟩
  · exact hsame.symm.trans ht
  · rw [hfailed] at ht
    cases ht

theorem closedClass_total : ClosedClass (fun _ : HandshakeState Secret => true) :=
  fun _ _ _ _ => rfl

variable {f : HandshakeState Secret → Bool} {peer : String} {s t : HandshakeState Secret}

theorem count_touch_le (hf : ClosedClass f)
    (hs : p.session peer = some s) (htouched : Touched s t) :
    (p.putSession peer t).manager.sessions.count f ≤ p.manager.sessions.count f := by
  apply AList.count_le_count
  intro peer' t' ht' hft'
  have hlookup : (p.putSession peer t).session peer' = some t' := ht'
  rw [Process.session_putSession] at hlookup
  split at hlookup
  case isTrue hpeer =>
    cases hlookup
    exact ⟨s, hpeer ▸ hs, hf s t htouched hft'⟩
  case isFalse => exact ⟨t', hlookup, hft'⟩

theorem count_touchAll_le (hf : ClosedClass f)
    {g : HandshakeState Secret → HandshakeState Secret} (hg : ∀ s, Touched s (g s)) :
    (p.manager.sessions.mapEntries fun _ => g).count f ≤ p.manager.sessions.count f := by
  apply AList.count_le_count
  intro peer t ht hft
  rw [AList.lookup_mapEntries, Option.map_eq_some_iff] at ht
  obtain ⟨s, hs, rfl⟩ := ht
  exact ⟨s, hs, hf s _ (hg s) hft⟩

theorem count_drop_le (f : HandshakeState Secret → Bool) (peer : String) :
    (p.removeSession peer).manager.sessions.count f ≤ p.manager.sessions.count f := by
  apply count_le_of_session
  intro peer' s hs
  rw [Process.session_removeSession] at hs
  split at hs
  · cases hs
  · exact hs

/-- A session that replaces another of the same class, or of none, adds nothing. -/
theorem count_replace_le (hs : p.session peer = some s) (hst : f t = true → f s = true) :
    (p.putSession peer t).manager.sessions.count f ≤ p.manager.sessions.count f := by
  apply AList.count_le_count
  intro peer' t' ht' hft'
  have hlookup : (p.putSession peer t).session peer' = some t' := ht'
  rw [Process.session_putSession] at hlookup
  split at hlookup
  case isTrue hpeer =>
    cases hlookup
    exact ⟨s, hpeer ▸ hs, hst hft'⟩
  case isFalse => exact ⟨t', hlookup, hft'⟩

theorem count_narrowed_le (h : Narrowed start p) (hf : ∀ s : HandshakeState Secret, ∀ received,
      f { s with receivedFlights := received } = f s) :
    p.manager.sessions.count f ≤ start.manager.sessions.count f := by
  apply AList.count_le_count
  intro peer s hs hfs
  obtain ⟨s₀, hs₀, hsame⟩ := h.session peer s hs
  rw [hsame, hf] at hfs
  exact ⟨s₀, hs₀, hfs⟩

theorem count_whole_le (h : Whole start p) (f : HandshakeStatus → Bool) :
    start.manager.sessions.count (f ·.status) ≤ p.manager.sessions.count (f ·.status) := by
  apply AList.count_le_count
  intro peer s₀ hs₀ hf
  obtain ⟨s, hs, hstatus⟩ := h peer s₀ hs₀
  exact ⟨s, hs, by rwa [hstatus]⟩

/-! ## The bounds -/

theorem withinLimits_of_counts {m m' : Manager Secret} (h : WithinLimits m)
    (hcount : ∀ f : HandshakeState Secret → Bool, ClosedClass f →
      m'.sessions.count f ≤ m.sessions.count f) : WithinLimits m' where
  inbound := (hcount _ (closedClass_pending false)).trans h.inbound
  outbound := (hcount _ (closedClass_pending true)).trans h.outbound
  established := (hcount _ closedClass_established).trans h.established
  total := by
    have htotal := h.total
    rw [totalCount_eq_count] at htotal ⊢
    exact (hcount _ closedClass_total).trans htotal

/-- Every move keeps the bounds if the message of the step finds room. -/
theorem Move.withinLimits (room : LeavesRoom prim ans start incoming) {q : Process Secret}
    (move : Move prim ans incoming start p q) (h : WithinLimits p.manager) :
    WithinLimits q.manager := by
  cases move with
  | @keep m effects sessions ourDht silent =>
    apply withinLimits_of_counts h
    intro f _
    rw [sessions]
  | drop peer => exact withinLimits_of_counts h fun f _ => count_drop_le f peer
  | touch session touched =>
    exact withinLimits_of_counts h fun f hf => count_touch_le hf session touched
  | touchAll touched => exact withinLimits_of_counts h fun f hf => count_touchAll_le hf touched
  | send outgoing => exact h
  | @initiated target blob bytes now mode verification maintain _ _ _ _ total pending =>
    have hnew := fun f => AList.count_insert_le f p.manager.sessions target
      (initiatedState prim ans target blob bytes now mode verification maintain)
    constructor
    case inbound => exact (AList.count_insert_of_not _ _ _ rfl).trans h.inbound
    case outbound => exact (hnew _).trans pending
    case established => exact (AList.count_insert_of_not _ _ _ rfl).trans h.established
    case total =>
      rw [totalCount_eq_count] at total ⊢
      exact (hnew _).trans total
  | @welcomed msg raw blob bytes shared theirChallenge inbound type admitted rate narrowed
      accepted fetched encoded delivered sent established total pending held =>
      have hnew := fun f => AList.count_insert_le f p.manager.sessions msg.senderDht
        (welcomedState prim msg (ans.ephemeralSecret msg.senderDht)
          (ans.randomChallenge msg.senderDht) theirChallenge shared blob bytes (prim.sha256 raw)
          (ans.clock 1))
      constructor
      case inbound =>
        refine (hnew _).trans ?_
        cases hsession : p.session msg.senderDht with
        | none => exact pending hsession
        | some s =>
          obtain ⟨hgives, hwhole⟩ := held s hsession
          have hdisplaces : Displaces prim ans start msg := by
            refine ⟨type, admitted, rate, ?_, ?_, ?_, shared, theirChallenge, blob, bytes,
              accepted, fetched, ?_, delivered⟩
            · exact lt_of_le_of_lt (count_whole_le hwhole (· == .established)) established
            · rw [totalCount_eq_count] at total ⊢
              exact lt_of_le_of_lt (count_whole_le hwhole fun _ => true) total
            · obtain ⟨s₀, hs₀, hsame⟩ := narrowed.session _ s hsession
              rw [hsame] at hgives
              exact ⟨s₀, hs₀, hgives⟩
            · rwa [← narrowed.ourDht]
          have hroom := room.displaced msg raw inbound hdisplaces
          exact lt_of_le_of_lt (count_narrowed_le narrowed fun _ _ => rfl) hroom
      case outbound => exact (AList.count_insert_of_not _ _ _ rfl).trans h.outbound
      case established => exact (AList.count_insert_of_not _ _ _ rfl).trans h.established
      case total =>
        rw [totalCount_eq_count] at total ⊢
        exact (hnew _).trans total
  | @replied msg raw route bytes s parts inbound type admitted narrowed session accepted hroute
      encoded delivered =>
      have hnew := fun f => AList.count_insert_le f p.manager.sessions msg.senderDht
        (repliedState prim s msg (prim.diffieHellman parts.ourPrivate msg.senderPubkey) bytes
          (ans.clock 1))
      obtain ⟨s₀, hs₀, hsame⟩ := narrowed.session _ s session
      have hcompletes : Completes prim ans start msg := by
        rw [hsame, narrowed.ourDht] at accepted encoded
        rw [hsame] at hroute
        exact .reply type admitted hs₀ ⟨accepted.checked, accepted.nonzero, accepted.signature⟩
          hroute encoded delivered
      have hroom := room.completed msg raw inbound hcompletes
      constructor
      case inbound =>
        exact (AList.count_insert_of_not _ _ _ (by simp [Manager.isPendingOn, repliedState])).trans
          h.inbound
      case outbound =>
        exact (AList.count_insert_of_not _ _ _ (by simp [Manager.isPendingOn, repliedState])).trans
          h.outbound
      case established =>
        refine (hnew _).trans ?_
        exact lt_of_le_of_lt (count_narrowed_le narrowed fun _ _ => rfl) hroom
      case total =>
        have htotal := h.total
        rw [totalCount_eq_count] at htotal ⊢
        exact (count_replace_le session fun _ => rfl).trans htotal
  | replyLost _ _ _ session accepted _ =>
    exact withinLimits_of_counts h fun f hf => count_touch_le hf session accepted.lost
  | @finished msg raw s inbound type admitted narrowed session accepted =>
    have hnew := fun f => AList.count_insert_le f p.manager.sessions msg.senderDht
      (finishedState ans s msg)
    obtain ⟨s₀, hs₀, hsame⟩ := narrowed.session _ s session
    have hcompletes : Completes prim ans start msg := by
      rw [hsame, narrowed.ourDht] at accepted
      exact .final type admitted hs₀ accepted
    have hroom := room.completed msg raw inbound hcompletes
    constructor
    case inbound =>
      exact (AList.count_insert_of_not _ _ _ (by simp [Manager.isPendingOn, finishedState])).trans
        h.inbound
    case outbound =>
      exact (AList.count_insert_of_not _ _ _ (by simp [Manager.isPendingOn, finishedState])).trans
        h.outbound
    case established =>
      refine (hnew _).trans ?_
      exact lt_of_le_of_lt (count_narrowed_le narrowed fun _ _ => rfl) hroom
    case total =>
      have htotal := h.total
      rw [totalCount_eq_count] at htotal ⊢
      exact (count_replace_le session fun _ => rfl).trans htotal

/-! ## Runs -/

/-- A node that starts without sessions and performs operations. -/
def managerSystem (prim : Primitives Secret) (direct : DirectPrimitives) :
    LabelledSystem (Process Secret) (Operation × Answers Secret) where
  initial p := ∃ ourDht, p = ⟨.new ourDht, []⟩
  step p label q := q = perform prim direct label.2 p label.1

/-- In every run whose messages find room, the bounds hold in every state. -/
theorem sessions_within_limits
    (reached : ((managerSystem prim direct).restrict fun p label =>
      LeavesRoom prim label.2 p (label.1.incoming prim label.2)).Reachable p) :
    WithinLimits p.manager := by
  have hinv : ((managerSystem prim direct).restrict fun p label =>
      LeavesRoom prim label.2 p (label.1.incoming prim label.2)).Invariant
        fun p => WithinLimits p.manager := by
    constructor
    case initially =>
      rintro _ ⟨ourDht, rfl⟩
      exact ⟨Nat.zero_le _, Nat.zero_le _, Nat.zero_le _, Nat.zero_le _⟩
    case preserved =>
      rintro p ⟨op, ans⟩ _ h ⟨room, rfl⟩
      exact (perform_moves op p).invariant (fun _ _ move => move.withinLimits room) h
  exact hinv.holds reached

/-! ## A crowd of initiators -/

/-- The peers, told apart by the length of their names. -/
def crowdPeer (n : Nat) : String := String.ofList (List.replicate (n + 1) 'x')

def crowdInit (n : Nat) : HandshakeMessage :=
  initMessage (crowdPeer n) (List.replicate 32 1) "t" (List.replicate 32 1) 1000 .aes256Gcm false

/-- A hash of thirty-two bytes. -/
def checksum (bytes : Bytes) : Bytes :=
  List.replicate 32 (bytes.foldl (fun sum byte => 31 * sum + byte) 7)

def crowdPrimitives : Primitives UInt8 := { Sample.primitives with sha256 := checksum }

theorem crowd_readsJson : ReadsJson crowdPrimitives where
  message message := by
    simp only [crowdPrimitives, Sample.primitives, HandshakeMessage.read_toJson]

/-- A node without a grudge, whose sessions are all pending and recent. -/
structure Crowded (p : Process UInt8) : Prop where
  ourDht : p.manager.ourDht = ""
  ignored : p.manager.ignoredUntil = fun _ => none
  quarantined : p.manager.quarantinedUntil = fun _ => none
  pending : ∀ e ∈ p.manager.sessions.entries,
    e.2.status ≠ .established ∧ e.2.status ≠ .failed ∧ e.2.startedAt = 1000

theorem crowdPeer_injective : Function.Injective crowdPeer := by
  intro a b h
  have hlist := congrArg String.toList h
  simp only [crowdPeer, String.toList_ofList] at hlist
  have hlength := congrArg List.length hlist
  simpa using hlength

theorem utf8ByteSize_crowdPeer (n : Nat) : (crowdPeer n).utf8ByteSize = n + 1 := by
  have h : ∀ k, (String.ofList (List.replicate k 'x')).utf8ByteSize = k := by
    intro k
    induction k with
    | zero => rfl
    | succ k ih =>
      rw [List.replicate_succ', String.ofList_append, String.utf8ByteSize_append, ih]
      rfl
  exact h (n + 1)

theorem crowdPeer_ne_empty (n : Nat) : crowdPeer n ≠ "" := by
  intro h
  have hsize := utf8ByteSize_crowdPeer n
  rw [h] at hsize
  simp at hsize

variable {p q : Process UInt8}

/-- Where nothing is stale, making room changes nothing. -/
theorem Crowded.reservePendingSlot (h : Crowded p) {isInitiator : Bool}
    {limit : Nat} (hlimit : limit = if isInitiator then maxPendingOutboundHandshakes
      else maxPendingInboundHandshakes) (room : p.manager.pendingCount isInitiator < limit) :
    p.manager.reservePendingSlot isInitiator 1000 = (true, p.manager) := by
  have hstale : (p.manager.sessions.entries.filter fun e =>
      Manager.isPendingOn isInitiator e.2 && (e.2.status == .failed ||
        decide (pendingSessionMaxAgeSecs ≤
          StreamTransport.saturatingSub 1000 e.2.startedAt))) = [] := by
    rw [List.filter_eq_nil_iff]
    intro e he
    obtain ⟨-, hfailed, hstarted⟩ := h.pending e he
    have hrecent : ¬ pendingSessionMaxAgeSecs ≤ StreamTransport.saturatingSub 1000 1000 := by
      decide
    simp [hfailed, hstarted, hrecent]
  subst hlimit
  unfold Manager.reservePendingSlot
  rw [hstale]
  exact Prod.ext (decide_eq_true room) rfl

variable {n k : Nat}

theorem length_crowdInit_le (hn : n < 256) : (crowdInit n).toJson.length ≤ 4096 := by
  have hle := @HandshakeMessage.length_toJson_le (crowdInit n) 0 1024 nofun
    (by decide +kernel : (initMessage "" (List.replicate 32 1) "t" (List.replicate 32 1) 1000
      .aes256Gcm false).toJson.length ≤ 1024)
  have hsize : (crowdInit n).senderDht.utf8ByteSize = n + 1 := utf8ByteSize_crowdPeer n
  omega

theorem crowdInit_decoded (hn : n < 256) :
    decodeAndValidateHandshakeMessage crowdPrimitives 1000 (crowdInit n).toJson =
      .ok (crowdInit n) := by
  have hsize := utf8ByteSize_crowdPeer n
  apply decodeAndValidateHandshakeMessage_toJson crowd_readsJson
  case short =>
    exact (length_crowdInit_le hn).trans (by decide)
  case valid =>
    have hlong : ¬ (crowdInit n).senderDht.utf8ByteSize > 256 := by
      change ¬ (crowdPeer n).utf8ByteSize > 256
      omega
    unfold validateHandshakeMessage
    simp only [hlong, if_false]
    rfl
  case record =>
    simpa [crowdPrimitives, Sample.primitives, crowdInit, initMessage] using crowdPeer_ne_empty n
  case early =>
    exact (by decide : ¬ (1000 : UInt64) > StreamTransport.saturatingAdd 1000 timeWindow)
  case late =>
    exact (by decide : ¬ StreamTransport.saturatingAdd 1000 timeWindow < (1000 : UInt64))

theorem Crowded.establishedCount (h : Crowded p) : p.manager.establishedCount = 0 := by
  rw [Manager.establishedCount, AList.count, List.countP_eq_zero]
  intro e he
  simpa using (h.pending e he).1

theorem crowd_answerable (h : Crowded p) (k : Nat) :
    ∃ bytes, Answerable crowdPrimitives (Sample.answers 1 1 "t") p.manager.ourDht (crowdInit k)
      (List.replicate 32 1) (List.replicate 32 1) (utf8 (crowdPeer k)) bytes := by
  have hle := @HandshakeMessage.length_toJson_le (welcomeAnswer crowdPrimitives
    (Sample.answers 1 1 "t") "" (crowdInit k) (List.replicate 32 1) (List.replicate 32 1)) 32 1024
    (by rintro _ ⟨⟩; exact List.length_replicate.le)
    (by decide +kernel : ({ welcomeAnswer crowdPrimitives (Sample.answers 1 1 "t") ""
      (crowdInit 0) [] [] with signature := none } : HandshakeMessage).toJson.length ≤ 1024)
  rw [h.ourDht]
  exact ⟨_, rfl, rfl, encodeHandshakeMessage_of_short (hle.trans
    (by decide : 1024 + 6 * 0 + 4 * 32 ≤ maxHandshakeMessageBytes)), rfl⟩

theorem Crowded.establishedCount_lt (h : Crowded p) :
    p.manager.establishedCount < maxEstablishedHandshakes := by
  rw [h.establishedCount]
  decide

/-- A crowd with one more session, however it was put in. -/
theorem Crowded.insert (h : Crowded p) {t : HandshakeState UInt8}
    (sessions : q.manager.sessions = p.manager.sessions.insert peer t)
    (ourDht : q.manager.ourDht = p.manager.ourDht)
    (ignored : q.manager.ignoredUntil = p.manager.ignoredUntil)
    (quarantined : q.manager.quarantinedUntil = p.manager.quarantinedUntil)
    (pending : t.status ≠ .established ∧ t.status ≠ .failed ∧ t.startedAt = 1000) :
    Crowded q where
  ourDht := ourDht.trans h.ourDht
  ignored := ignored.trans h.ignored
  quarantined := quarantined.trans h.quarantined
  pending := by
    intro e he
    rw [sessions, AList.entries_insert] at he
    rcases List.mem_cons.mp he with rfl | he
    · exact pending
    · exact h.pending e ((List.kerase_sublist _ _).subset he)

theorem Crowded.welcome (h : Crowded p) (k : Nat) :
    SenderWelcome (Sample.answers 1 1 "t") p (crowdInit k).senderDht where
  other := by
    rw [h.ourDht]
    exact crowdPeer_ne_empty k
  blocked := rfl
  ignored := congrFun h.ignored _
  quarantined := congrFun h.quarantined _

/-- The node gets the type 1 of a peer. -/
def crowdStep (p : Process UInt8) (k : Nat) : Process UInt8 :=
  perform crowdPrimitives Sample.direct (Sample.answers 1 1 "t") p
    (.appMessage (crowdInit k).toJson)

/-- What the node does with a type 1 once it is compared with earlier flights. -/
theorem crowdStep_eq (h : Crowded p) (hk : k < 256)
    (first : handleDuplicateOrConflictingFlight crowdPrimitives (Sample.answers 1 1 "t")
      (crowdInit k) (crowdInit k).toJson p = (.ok false, q)) :
    crowdStep p k = (recoverWithReset crowdPrimitives (Sample.answers 1 1 "t") (crowdPeer k)
      (handleInit crowdPrimitives (Sample.answers 1 1 "t") (crowdInit k) (crowdInit k).toJson)
      q).2 := by
  have hshort : (crowdInit k).toJson.length ≤ maxDirectApplicationMessageBytes :=
    (length_crowdInit_le hk).trans (by decide)
  have hdecoded : decodeAndValidateHandshakeMessage crowdPrimitives
      ((Sample.answers 1 1 "t").clock 6) (crowdInit k).toJson = .ok (crowdInit k) :=
    crowdInit_decoded hk
  have htype : (crowdInit k).messageType ≠ handshakeResetMessageType :=
    (by decide : (1 : UInt8) ≠ handshakeResetMessageType)
  have hquick : (crowdInit k).maintainConnection = false := rfl
  have hinit : (crowdInit k).messageType = 1 := rfl
  rw [crowdStep, perform_appMessage hshort hdecoded,
    processValidatedMessage_of_welcome (h.welcome k) htype, upgradeQuickSession_of_quick hquick,
    processUnlessDuplicate_of_false first, handleByType_init hinit]
  rfl

theorem crowd_few (attempts : p.manager.inboundInitAttempts (crowdPeer k) = []) :
    recentInits 1000 (crowdInit k).senderDht p ≤ maxInboundHandshakeInitsPerWindow := by
  have hattempts : p.manager.inboundInitAttempts (crowdInit k).senderDht = [] := attempts
  rw [recentInits, hattempts]
  decide

/-- A type 1 of a peer that holds a session is answered whether or not there is room. -/
theorem Crowded.step_held (h : Crowded p) (hk : k < 256)
    (attempts : p.manager.inboundInitAttempts (crowdPeer k) = [])
    (total : p.manager.totalCount < maxTotalSessions) {s : HandshakeState UInt8}
    (session : p.session (crowdPeer k) = some s) (first : s.receivedFlights 1 = none) :
    ∃ noted t effect, Manager.isPendingOn false t = true ∧ Manager.isPendingOn true t = false ∧
      t.status ≠ .failed ∧ t.startedAt = 1000 ∧
      crowdStep p k = ((countInit 1000 (crowdPeer k) (p.putSession (crowdPeer k) noted)).ask
        effect).putSession (crowdPeer k) t := by
  obtain ⟨noted, hreceived⟩ : ∃ noted : HandshakeState UInt8, noted = { s with
    receivedFlights := Function.update s.receivedFlights (crowdInit k).messageType
      (some (crowdPrimitives.sha256 (crowdInit k).toJson)) } := ⟨_, rfl⟩
  have hfirst : handleDuplicateOrConflictingFlight crowdPrimitives (Sample.answers 1 1 "t")
      (crowdInit k) (crowdInit k).toJson p = (.ok false, p.putSession (crowdPeer k) noted) := by
    rw [hreceived]
    exact handleDuplicate_of_first (by decide : (1 : UInt8) ∈ [1, 2, 3]) session first
  have hpending : noted.status ≠ .established ∧ noted.status ≠ .failed ∧
      noted.startedAt = 1000 := by
    rw [hreceived]
    exact h.pending ⟨crowdPeer k, s⟩ (AList.mem_lookup_iff.mp session)
  have hcrowd : Crowded (p.putSession (crowdPeer k) noted) := h.insert rfl rfl rfl rfl hpending
  have hcounted : Crowded (countInit 1000 (crowdPeer k) (p.putSession (crowdPeer k) noted)) :=
    ⟨hcrowd.ourDht, hcrowd.ignored, hcrowd.quarantined, hcrowd.pending⟩
  have htotal : (p.putSession (crowdPeer k) noted).manager.totalCount < maxTotalSessions := by
    rw [totalCount_eq_count] at total ⊢
    exact (count_replace_le session fun _ => rfl).trans_lt total
  have hsession : ((p.putSession (crowdPeer k) noted).session (crowdPeer k)).isSome := by simp
  have hattempts : (p.putSession (crowdPeer k) noted).manager.inboundInitAttempts (crowdPeer k) =
      [] := attempts
  have hwelcomed : handleInit crowdPrimitives (Sample.answers 1 1 "t") (crowdInit k)
      (crowdInit k).toJson (p.putSession (crowdPeer k) noted) =
        handleWelcome crowdPrimitives (Sample.answers 1 1 "t") (crowdInit k)
          (crowdPrimitives.sha256 (crowdInit k).toJson)
          (countInit 1000 (crowdPeer k) (p.putSession (crowdPeer k) noted)) :=
    handleInit_of_session (crowd_few hattempts) hcrowd.establishedCount_lt htotal hsession
  obtain ⟨bytes, hanswer⟩ := crowd_answerable hcounted k
  refine ⟨noted, _, _, ?_, ?_, ?_, ?_, (crowdStep_eq h hk hfirst).trans (congrArg Prod.snd
    (recoverWithReset_of_ok (hwelcomed.trans (handleWelcome_of_answerable hanswer))))⟩
  · rfl
  · rfl
  · exact HandshakeStatus.noConfusion
  · rfl

/-- The node starts a handshake with a peer of a crowd. -/
def crowdInitiation (p : Process UInt8) (k : Nat) : Process UInt8 :=
  perform crowdPrimitives Sample.direct (Sample.answers 1 1 "t") p
    (.initiateHandshakeWithMode (crowdPeer k) .aes256Gcm)

theorem crowdInitiation_eq (h : Crowded p) (total : p.manager.totalCount < maxTotalSessions)
    (room : p.manager.pendingCount true < maxPendingOutboundHandshakes)
    (session : p.session (crowdPeer k) = none) :
    ∃ s effect, s.status = .initSent ∧ s.startedAt = 1000 ∧ s.receivedFlights 1 = none ∧
      crowdInitiation p k = (p.ask effect).putSession (crowdPeer k) s := by
  have hlength : (initMessage p.manager.ourDht (List.replicate 32 1) "t" (List.replicate 32 1)
      1000 .aes256Gcm false).toJson.length ≤ maxHandshakeMessageBytes := by
    rw [h.ourDht]
    decide +kernel
  have hpending : ∀ s, p.session (crowdPeer k) = some s → s.status ≠ .established := by
    intro s hs
    rw [session] at hs
    cases hs
  have hstarted : initiateHandshakeInternal crowdPrimitives (Sample.answers 1 1 "t") 1000
      (crowdPeer k) .aes256Gcm false false p = (.ok (), _) :=
    initiateHandshakeInternal_of_welcome (h.welcome k) hpending total
      (h.reservePendingSlot rfl room) rfl
      (encodeHandshakeMessage_of_short hlength) rfl
  refine ⟨_, _, ?_, ?_, ?_, congrArg Prod.snd hstarted⟩
  · rfl
  · rfl
  · rfl

/-- A crowd of `n` pending inbound sessions, none of a later peer. -/
structure CrowdOf (n : Nat) (p : Process UInt8) : Prop extends Crowded p where
  inbound : p.manager.pendingCount false = n
  outbound : p.manager.pendingCount true ≤ 0
  total : p.manager.totalCount = n
  unseen : ∀ k, n ≤ k → p.session (crowdPeer k) = none ∧
    p.manager.inboundInitAttempts (crowdPeer k) = []

/-- The node starts a handshake with a peer and answers the peer's own type 1, for which it looks
for no room. -/
theorem CrowdOf.step (h : CrowdOf n p) (hn : n < 256) :
    CrowdOf (n + 1) (crowdStep (crowdInitiation p n) n) := by
  have hlimit : maxTotalSessions = 2000 := rfl
  have htotal : p.manager.totalCount < maxTotalSessions := by
    rw [h.total]
    omega
  obtain ⟨hsession, hattempts⟩ := h.unseen n le_rfl
  obtain ⟨s, effect, hstatus, hstarted, hreceived, hinitiated⟩ :=
    crowdInitiation_eq h.toCrowded htotal (h.outbound.trans_lt (by decide)) hsession
  have hcrowd : Crowded ((p.ask effect).putSession (crowdPeer n) s) := by
    refine h.toCrowded.insert rfl rfl rfl rfl ⟨?_, ?_, hstarted⟩
    · rw [hstatus]
      exact HandshakeStatus.noConfusion
    · rw [hstatus]
      exact HandshakeStatus.noConfusion
  have hcount := h.total
  rw [totalCount_eq_count] at hcount
  have hroom : ((p.ask effect).putSession (crowdPeer n) s).manager.totalCount <
      maxTotalSessions := by
    rw [totalCount_eq_count]
    refine (AList.count_insert_le _ _ _ _).trans_lt ?_
    rw [Process.ask, hcount]
    omega
  obtain ⟨noted, t, answer, hinbound, houtbound, hfailed, hpending, hstep⟩ :=
    hcrowd.step_held hn hattempts hroom (by simp) hreceived
  rw [hinitiated]
  have hsessions : (crowdStep ((p.ask effect).putSession (crowdPeer n) s) n).manager.sessions =
      p.manager.sessions.insert (crowdPeer n) t := by
    rw [hstep]
    exact (AList.insert_insert _).trans (AList.insert_insert _)
  have hnew : ∀ (f : HandshakeState UInt8 → Bool),
      ∀ c, p.manager.sessions.lookup (crowdPeer n) = some c → f c = false := by
    intro f c hc
    cases hsession.symm.trans hc
  have hestablished : t.status ≠ .established := by
    intro hestablished
    simp [Manager.isPendingOn, hestablished] at hinbound
  refine { toCrowded := ?_, inbound := ?_, outbound := ?_, total := ?_, unseen := ?_ }
  · rw [hstep] at hsessions ⊢
    exact h.toCrowded.insert hsessions rfl rfl rfl ⟨hestablished, hfailed, hpending⟩
  · rw [Manager.pendingCount, hsessions, AList.count_insert_of_new _ _ _ hinbound (hnew _)]
    exact congrArg (· + 1) h.inbound
  · rw [Manager.pendingCount, hsessions]
    exact (AList.count_insert_of_not _ _ _ houtbound).trans h.outbound
  · rw [totalCount_eq_count, hsessions, AList.count_insert_of_new _ _ _ rfl (hnew _), hcount]
  intro k hk
  obtain ⟨hlater, hquiet⟩ := h.unseen k (by omega)
  have hne : crowdPeer k ≠ crowdPeer n := by
    intro heq
    have hkn := crowdPeer_injective heq
    omega
  constructor
  · rw [Process.session, hsessions, AList.lookup_insert_ne hne]
    exact hlater
  · rw [hstep]
    exact (Function.update_of_ne hne _ _).trans hquiet

theorem crowd_reached (hn : n ≤ 256) :
    ∃ p, (managerSystem crowdPrimitives Sample.direct).Reachable p ∧ CrowdOf n p := by
  induction n with
  | zero =>
    refine ⟨⟨.new "", []⟩, .start ⟨"", rfl⟩, ⟨rfl, rfl, rfl, ?_⟩, rfl, le_rfl, rfl, ?_⟩
    · intro e he
      cases he
    · exact fun _ _ => ⟨rfl, rfl⟩
  | succ n ih =>
    obtain ⟨p, hreached, hcrowd⟩ := ih (by omega)
    have hinitiated : (managerSystem crowdPrimitives Sample.direct).Reachable
        (crowdInitiation p n) :=
      hreached.next (.initiateHandshakeWithMode (crowdPeer n) .aes256Gcm,
        Sample.answers 1 1 "t") rfl
    exact ⟨crowdStep (crowdInitiation p n) n, hinitiated.next (.appMessage (crowdInit n).toJson,
      Sample.answers 1 1 "t") rfl, hcrowd.step (by omega)⟩

/-- One session too many. -/
theorem pending_inbound_exceeds_limit :
    ∃ p, (managerSystem crowdPrimitives Sample.direct).Reachable p ∧
      maxPendingInboundHandshakes < p.manager.pendingCount false := by
  have hsmall : maxPendingInboundHandshakes + 1 ≤ 256 := by decide
  obtain ⟨p, hreached, hcrowd⟩ := crowd_reached hsmall
  exact ⟨p, hreached, (Nat.lt_succ_self _).trans_eq hcrowd.inbound.symm⟩

/-- The node answers one type 1, which displaces nothing. -/
theorem sessions_within_limits_one_init : WithinLimits (crowdStep ⟨.new "", []⟩ 0).manager :=
  sessions_within_limits (.next (.appMessage (crowdInit 0).toJson, Sample.answers 1 1 "t")
    (.start ⟨"", rfl⟩) ⟨⟨fun _ _ _ _ => by decide, fun _ _ _ _ => by decide⟩, rfl⟩)

end VeilKnit.Handshake
