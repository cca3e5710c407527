import VeilKnit.Api.MessageHub

/-!
# Delivery of application messages

A publication queues its message under the lock and broadcasts it afterwards. A subscriber starts
with a snapshot of its queue and goes on with the broadcast; it writes each message, notes its key
and then acknowledges it. One that has fallen too far behind loses the oldest broadcasts and takes
another snapshot instead.

What it has lost is in that snapshot only if no other subscriber of the application has
acknowledged it. While that is so, everything that a subscriber is owed is written to it once, or is
on its way, or waits.
-/

namespace VeilKnit.Api

open Library AppMessageHub
open scoped BigOperators

/-- The messages that the broadcast holds for a receiver that is behind. -/
def broadcastCapacity : Nat := 1024

/-- A connection that has subscribed: how much of the broadcast it has received, what it handles
next, whether it is past its first snapshot and compares with what it has written, which
acknowledgement it owes, and whether it has to take another snapshot. -/
structure Subscriber where
  appId : String
  position : Nat
  rest : List ApiApplicationMessage
  live : Bool
  delivered : Finset String
  owes : Option String
  resync : Bool
  /-- What has been written, in order. -/
  written : List String
  /-- What waited when it subscribed or has been published since, and has not been dropped. -/
  owed : List String

namespace Subscriber

/-- Write a message, unless it has been written before and the subscriber compares. -/
def handled (c : Subscriber) (message : ApiApplicationMessage)
    (rest : List ApiApplicationMessage) : Subscriber :=
  let key := applicationMessageKey message
  if c.live = true ∧ key ∈ c.delivered then { c with rest, owes := some key }
  else
    { c with
      rest
      delivered := insert key c.delivered
      written := c.written ++ [key]
      owes := some key }

/-- The broadcasts that a receiver loses when it receives next. -/
def skips (c : Subscriber) (log : List ApiApplicationMessage) : List ApiApplicationMessage :=
  (log.drop c.position).take (log.length - broadcastCapacity - c.position)

/-- Receive the next broadcast, or learn that some have been lost. -/
def received (c : Subscriber) (log : List ApiApplicationMessage) : Option Subscriber :=
  if log.length - c.position ≤ broadcastCapacity then
    log[c.position]?.map fun message =>
      { c with
        position := c.position + 1
        live := true
        rest := if message.applicationId = c.appId then [message] else [] }
  else
    some { c with position := log.length - broadcastCapacity, live := true, resync := true }

/-- A subscriber after a message has been published and others have been dropped. -/
def owe (c : Subscriber) (gone : List (String × String)) (message : ApiApplicationMessage) :
    Subscriber :=
  { c with
    owed := (if c.appId = message.applicationId then c.owed ++ [applicationMessageKey message]
      else c.owed).filter fun key => (c.appId, key) ∉ gone }

end Subscriber

/-- The hub with its broadcast, the publications between the lock and the broadcast, and the
subscribers. -/
structure Delivering where
  hub : AppMessageHub
  log : List ApiApplicationMessage
  unsent : List ApiApplicationMessage
  subscribers : List Subscriber
  /-- The messages queued and not dropped, by application and key. -/
  published : List (String × String)
  /-- What has been written to some subscriber. -/
  handedOver : List (String × String)

namespace Delivering

/-- Publications; their broadcasts; subscribers that come and go; what a subscriber does: write
the next message, acknowledge it, receive, take another snapshot. -/
inductive Label
  | publish (message : ApiApplicationMessage)
  | send (index : Nat)
  | subscribe (appId : String)
  | disconnect (index : Nat)
  | handle (index : Nat)
  | acknowledge (index : Nat)
  | receive (index : Nat)
  | resynchronise (index : Nat)

/-- The messages that a publication drops. -/
def dropped (hub : AppMessageHub) (message : ApiApplicationMessage) : List (String × String) :=
  (hub.arrivalOrder ++ [((canonicalMessage message).applicationId,
    applicationMessageKey (canonicalMessage message))]).filter
      (· ∉ (hub.publish message).arrivalOrder)

def publish (s : Delivering) (message : ApiApplicationMessage) : Delivering :=
  if s.hub.accepts message then
    let queued := canonicalMessage message
    let gone := dropped s.hub message
    { s with
      hub := s.hub.publish message
      unsent := s.unsent ++ [queued]
      subscribers := s.subscribers.map fun c => c.owe gone queued
      published := (s.published ++ [(queued.applicationId, applicationMessageKey queued)]).filter
        (· ∉ gone) }
  else s

def subscribe (s : Delivering) (appId : String) : Delivering :=
  { s with
    subscribers := s.subscribers ++ [{
      appId := canonicalApplicationId appId
      position := s.log.length
      rest := s.hub.snapshot appId
      live := false
      delivered := ∅
      owes := none
      resync := false
      written := []
      owed := (s.hub.snapshot appId).map applicationMessageKey }] }

/-- What happens next. A connection can end at any time, a failed write ends it. -/
def next (s : Delivering) : Label → Option Delivering
  | .publish message => some (s.publish message)
  | .send index =>
    s.unsent[index]?.map fun message =>
      { s with log := s.log ++ [message], unsent := s.unsent.eraseIdx index }
  | .subscribe appId => some (s.subscribe appId)
  | .disconnect index => some { s with subscribers := s.subscribers.eraseIdx index }
  | .handle index =>
    s.subscribers[index]?.bind fun c =>
      match c.owes, c.rest with
      | none, message :: rest =>
        some
          { s with
            subscribers := s.subscribers.set index (c.handled message rest)
            handedOver := (c.appId, applicationMessageKey message) :: s.handedOver }
      | _, _ => none
  | .acknowledge index =>
    s.subscribers[index]?.bind fun c =>
      c.owes.map fun key =>
        { s with
          hub := s.hub.acknowledge c.appId key
          subscribers := s.subscribers.set index { c with owes := none } }
  | .receive index =>
    s.subscribers[index]?.bind fun c =>
      if c.rest = [] ∧ c.owes = none ∧ c.resync = false then
        (c.received s.log).map fun c => { s with subscribers := s.subscribers.set index c }
      else none
  | .resynchronise index =>
    s.subscribers[index]?.bind fun c =>
      if c.resync = true then
        some
          { s with
            subscribers := s.subscribers.set index
              { c with rest := s.hub.snapshot c.appId, resync := false } }
      else none

def initial : Delivering where
  hub := AppMessageHub.new
  log := []
  unsent := []
  subscribers := []
  published := []
  handedOver := []

def system : LabelledSystem Delivering Label where
  initial s := s = initial
  step s label s' := s.next label = some s'

/-- The condition: a key that waits is remembered, and what a subscriber has lost of the broadcast
waits until it takes its snapshot. -/
def Permits (s : Delivering) : Label → Prop
  | .publish message => s.hub.Remembers (.publish message)
  | .receive index =>
    ∀ c ∈ s.subscribers[index]?, ∀ message ∈ c.skips s.log, message.applicationId = c.appId →
      applicationMessageKey message ∈ c.owed → applicationMessageKey message ∈ c.delivered ∨
        (c.appId, applicationMessageKey message) ∈ s.hub.arrivalOrder
  | .acknowledge index =>
    ∀ c ∈ s.subscribers[index]?, ∀ key ∈ c.owes, ∀ other ∈ s.subscribers,
      other.resync = true → other.appId = c.appId → key ∈ other.owed → key ∈ other.delivered
  | _ => True

end Delivering

namespace Subscriber

/-- A message is among those that a subscriber handles next, the broadcasts that it has not
received, and those that are still to be broadcast. -/
def Awaits (s : Delivering) (c : Subscriber) (key : String) : Prop :=
  ∃ message ∈ c.rest ++ (s.log.drop c.position ++ s.unsent),
    message.applicationId = c.appId ∧ applicationMessageKey message = key

/-- Nothing is written twice, and what is owed is written or on its way, or waits for the next
snapshot. -/
structure Served (s : Delivering) (c : Subscriber) : Prop where
  once : c.written.Nodup
  reached : ∀ key ∈ c.owed, key ∈ c.written ∨ c.Awaits s key ∨
    c.resync = true ∧ (c.appId, key) ∈ s.hub.arrivalOrder

structure Sound (s : Delivering) (c : Subscriber) : Prop extends Served s c where
  canonical : canonicalApplicationId c.appId = c.appId
  position_le : c.position ≤ s.log.length
  application : ∀ message ∈ c.rest, message.applicationId = c.appId
  mem_delivered : ∀ key, key ∈ c.delivered ↔ key ∈ c.written
  handed : ∀ key ∈ c.written, (c.appId, key) ∈ s.handedOver
  owes_written : ∀ key ∈ c.owes, key ∈ c.written
  first : c.live = false → (c.written ++ c.rest.map applicationMessageKey).Nodup
  idle : c.resync = true → c.live = true ∧ c.rest = []

variable {s s' : Delivering} {c : Subscriber}

/-- A change that does not touch a subscriber. -/
theorem Sound.mono (h : c.Sound s) (hlog : s.log.length ≤ s'.log.length)
    (hhanded : ∀ p ∈ s.handedOver, p ∈ s'.handedOver)
    (hawaits : ∀ key, c.Awaits s key → c.Awaits s' key)
    (hqueued : c.resync = true → ∀ key ∈ c.owed, (c.appId, key) ∈ s.hub.arrivalOrder →
      key ∈ c.written ∨ (c.appId, key) ∈ s'.hub.arrivalOrder) : c.Sound s' :=
  { h with
    reached := fun key hkey => by
      rcases h.reached key hkey with hwritten | hawait | ⟨hresync, hwaits⟩
      · exact Or.inl hwritten
      · exact Or.inr (Or.inl (hawaits key hawait))
      · rcases hqueued hresync key hkey hwaits with hwritten | hwaits
        · exact Or.inl hwritten
        · exact Or.inr (Or.inr ⟨hresync, hwaits⟩)
    position_le := h.position_le.trans hlog
    handed := fun key hkey => hhanded _ (h.handed key hkey) }

/-- A publication that is accepted is owed to the subscribers of its application. -/
theorem Sound.owe {queued : ApiApplicationMessage} {gone : List (String × String)}
    (h : c.Sound s) (hlog : s'.log = s.log) (hunsent : s'.unsent = s.unsent ++ [queued])
    (hhanded : s'.handedOver = s.handedOver)
    (hkept : ∀ p ∉ gone, p ∈ s.hub.arrivalOrder → p ∈ s'.hub.arrivalOrder) :
    (c.owe gone queued).Sound s' := by
  have hmore : ∀ m ∈ c.rest ++ (s.log.drop c.position ++ s.unsent),
      m ∈ c.rest ++ (s'.log.drop c.position ++ s'.unsent) := by
    intro m hm
    rw [hlog, hunsent]
    simp only [List.mem_append] at hm ⊢
    tauto
  have hposition : c.position ≤ s'.log.length := by rw [hlog]; exact h.position_le
  have hhand : ∀ key ∈ c.written, (c.appId, key) ∈ s'.handedOver := by
    rw [hhanded]
    exact h.handed
  have hold : ∀ key ∈ c.owed, (c.appId, key) ∉ gone → key ∈ c.written ∨ c.Awaits s' key ∨
      c.resync = true ∧ (c.appId, key) ∈ s'.hub.arrivalOrder := by
    intro key hkey hgone
    rcases h.reached key hkey with hwritten | ⟨m, hm, hm'⟩ | ⟨hresync, hwaits⟩
    · exact Or.inl hwritten
    · exact Or.inr (Or.inl ⟨m, hmore m hm, hm'⟩)
    · exact Or.inr (Or.inr ⟨hresync, hkept _ hgone hwaits⟩)
  refine ⟨⟨h.once, fun key hkey => ?_⟩, h.canonical, hposition, h.application,
    h.mem_delivered, hhand, h.owes_written, h.first, h.idle⟩
  obtain ⟨hkey, hgone⟩ := List.mem_filter.mp hkey
  have hgone : (c.appId, key) ∉ gone := of_decide_eq_true hgone
  split_ifs at hkey with happ
  · rcases List.mem_append.mp hkey with hkey | hkey
    · exact hold key hkey hgone
    · refine Or.inr (Or.inl ⟨queued, ?_, happ.symm, (List.mem_singleton.mp hkey).symm⟩)
      rw [hunsent]
      simp
  · exact hold key hkey hgone

/-- A message that has been written, or that the subscriber has written before. -/
theorem Sound.handled {message : ApiApplicationMessage} {rest : List ApiApplicationMessage}
    (h : c.Sound s) (hrest : c.rest = message :: rest)
    (hlog : s'.log = s.log) (hunsent : s'.unsent = s.unsent)
    (hhanded : s'.handedOver = (c.appId, applicationMessageKey message) :: s.handedOver) :
    (c.handled message rest).Sound s' := by
  have hresync : c.resync = false := by
    cases hflag : c.resync with
    | false => rfl
    | true => rw [(h.idle hflag).2] at hrest; cases hrest
  -- What is awaited is the message itself or is awaited still.
  have hawaits : ∀ key, c.Awaits s key → key = applicationMessageKey message ∨
      ∃ m ∈ rest ++ (s'.log.drop c.position ++ s'.unsent),
        m.applicationId = c.appId ∧ applicationMessageKey m = key := by
    rintro key ⟨m, hm, happ, rfl⟩
    rw [hrest, List.cons_append] at hm
    rcases List.mem_cons.mp hm with rfl | hm
    · exact Or.inl rfl
    · rw [hlog, hunsent]
      exact Or.inr ⟨m, hm, happ, rfl⟩
  have hreached : ∀ key ∈ c.owed, key ∈ c.written ∨ key = applicationMessageKey message ∨
      ∃ m ∈ rest ++ (s'.log.drop c.position ++ s'.unsent),
        m.applicationId = c.appId ∧ applicationMessageKey m = key := by
    intro key hkey
    rcases h.reached key hkey with hwritten | hawait | ⟨hflag, _⟩
    · exact Or.inl hwritten
    · exact Or.inr (hawaits key hawait)
    · rw [hresync] at hflag; cases hflag
  have happ : ∀ m ∈ rest, m.applicationId = c.appId := fun m hm =>
    h.application m (by rw [hrest]; exact List.mem_cons_of_mem _ hm)
  have hposition : c.position ≤ s'.log.length := hlog ▸ h.position_le
  have hhand : ∀ key ∈ c.written, (c.appId, key) ∈ s'.handedOver := fun key hkey => by
    rw [hhanded]
    exact List.mem_cons_of_mem _ (h.handed key hkey)
  unfold Subscriber.handled
  dsimp only
  split_ifs with hskip
  · have hwritten := (h.mem_delivered _).mp hskip.2
    refine ⟨⟨h.once, fun key hkey => ?_⟩, h.canonical, hposition, happ, h.mem_delivered, hhand,
      ?_, ?_, ?_⟩
    · rcases hreached key hkey with hkey | rfl | hawait
      · exact Or.inl hkey
      · exact Or.inl hwritten
      · exact Or.inr (Or.inl hawait)
    · rintro key hkey
      cases hkey
      exact hwritten
    · intro hlive
      rw [hskip.1] at hlive
      cases hlive
    · intro hflag
      rw [hresync] at hflag
      cases hflag
  have hnew : applicationMessageKey message ∉ c.written := by
    intro hmem
    cases hlive : c.live with
    | true => exact hskip ⟨hlive, (h.mem_delivered _).mpr hmem⟩
    | false =>
      have hfirst := h.first hlive
      rw [hrest] at hfirst
      exact (List.nodup_append.mp hfirst).2.2 _ hmem _ List.mem_cons_self rfl
  refine ⟨⟨?_, fun key hkey => ?_⟩, h.canonical, hposition, happ, ?_, ?_, ?_, ?_, ?_⟩
  · exact List.nodup_append.mpr ⟨h.once, List.nodup_singleton _, fun a ha b hb heq => by
      obtain rfl := List.mem_singleton.mp hb
      exact hnew (heq ▸ ha)⟩
  · rcases hreached key hkey with hkey | rfl | hawait
    · exact Or.inl (List.mem_append_left _ hkey)
    · exact Or.inl (List.mem_append_right _ (List.mem_singleton_self _))
    · exact Or.inr (Or.inl hawait)
  · intro key
    simp only [Finset.mem_insert, List.mem_append, List.mem_singleton, h.mem_delivered key]
    tauto
  · intro key hkey
    rcases List.mem_append.mp hkey with hkey | hkey
    · exact hhand key hkey
    · obtain rfl := List.mem_singleton.mp hkey
      rw [hhanded]
      exact List.mem_cons_self
  · intro key hkey
    cases hkey
    exact List.mem_append_right _ (List.mem_singleton_self _)
  · intro hlive
    have hfirst := h.first hlive
    rw [hrest, List.map_cons] at hfirst
    simpa [List.append_assoc] using hfirst
  · intro hflag
    rw [hresync] at hflag
    cases hflag

/-- A broadcast that has been received, or the news that some have been lost. -/
theorem Sound.received {c' : Subscriber} (h : c.Sound s) (hrest : c.rest = [])
    (hresync : c.resync = false) (hreceived : c.received s.log = some c')
    (hkept : ∀ message ∈ c.skips s.log, message.applicationId = c.appId →
      applicationMessageKey message ∈ c.owed → applicationMessageKey message ∈ c.delivered ∨
        (c.appId, applicationMessageKey message) ∈ s.hub.arrivalOrder) :
    c'.Sound s := by
  unfold Subscriber.received at hreceived
  split_ifs at hreceived with hnear
  · obtain ⟨message, hmessage, rfl⟩ := Option.map_eq_some_iff.mp hreceived
    obtain ⟨hlt, hget⟩ := List.getElem?_eq_some_iff.mp hmessage
    have hdrop : s.log.drop c.position = message :: s.log.drop (c.position + 1) := by
      rw [List.drop_eq_getElem_cons hlt, hget]
    refine ⟨⟨h.once, fun key hkey => ?_⟩, h.canonical, hlt, ?_, h.mem_delivered, h.handed,
      h.owes_written, nofun, ?_⟩
    · rcases h.reached key hkey with hwritten | ⟨m, hm, happ, rfl⟩ | ⟨hflag, _⟩
      · exact Or.inl hwritten
      · refine Or.inr (Or.inl ⟨m, ?_, happ, rfl⟩)
        rw [hrest, hdrop, List.nil_append, List.cons_append] at hm
        rcases List.mem_cons.mp hm with rfl | hm
        · rw [if_pos happ]
          exact List.mem_append_left _ List.mem_cons_self
        · exact List.mem_append_right _ hm
      · rw [hresync] at hflag; cases hflag
    · intro m hm
      dsimp only at hm
      split_ifs at hm with happ
      · obtain rfl := List.mem_singleton.mp hm
        exact happ
      · cases hm
    · intro hflag
      rw [hresync] at hflag
      cases hflag
  cases hreceived
  refine ⟨⟨h.once, fun key hkey => ?_⟩, h.canonical, Nat.sub_le _ _, h.application,
    h.mem_delivered, h.handed, h.owes_written, nofun, fun _ => ⟨rfl, hrest⟩⟩
  rcases h.reached key hkey with hwritten | ⟨m, hm, happ, rfl⟩ | ⟨hflag, _⟩
  · exact Or.inl hwritten
  · rw [hrest, List.nil_append] at hm
    rcases List.mem_append.mp hm with hm | hm
    · -- The broadcasts that are left are those after the lost ones.
      rw [← List.take_append_drop (s.log.length - broadcastCapacity - c.position)
        (s.log.drop c.position), List.drop_drop] at hm
      have hend : c.position + (s.log.length - broadcastCapacity - c.position) =
          s.log.length - broadcastCapacity := by omega
      rw [hend] at hm
      rcases List.mem_append.mp hm with hlost | hm
      · rcases hkept m hlost happ hkey with hdelivered | hwaits
        · exact Or.inl ((h.mem_delivered _).mp hdelivered)
        · exact Or.inr (Or.inr ⟨rfl, hwaits⟩)
      · refine Or.inr (Or.inl ⟨m, ?_, happ, rfl⟩)
        exact List.mem_append_right _ (List.mem_append_left _ hm)
    · refine Or.inr (Or.inl ⟨m, ?_, happ, rfl⟩)
      exact List.mem_append_right _ (List.mem_append_right _ hm)
  · rw [hresync] at hflag; cases hflag

/-- Another snapshot has what has been lost. -/
theorem Sound.resynchronise (h : c.Sound s) (haligned : Aligned s.hub) (hresync : c.resync = true) :
    Sound s { c with rest := s.hub.snapshot c.appId, resync := false } := by
  have hsnapshot : s.hub.snapshot c.appId = s.hub.queues c.appId := by
    rw [AppMessageHub.snapshot, h.canonical]
  refine ⟨⟨h.once, fun key hkey => ?_⟩, h.canonical, h.position_le, ?_, h.mem_delivered,
    h.handed, h.owes_written, fun hlive => ?_, nofun⟩
  · rcases h.reached key hkey with hwritten | ⟨m, hm, hm'⟩ | ⟨_, hwaits⟩
    · exact Or.inl hwritten
    · rw [(h.idle hresync).2, List.nil_append] at hm
      exact Or.inr (Or.inl ⟨m, List.mem_append_right _ hm, hm'⟩)
    · obtain ⟨m, hm, hkey⟩ := haligned.mem_arrivalOrder.mp hwaits
      refine Or.inr (Or.inl ⟨m, List.mem_append_left _ ?_, haligned.application _ m hm, hkey⟩)
      rw [hsnapshot]
      exact hm
  · rw [hsnapshot]
    exact haligned.application c.appId
  · rw [(h.idle hresync).1] at hlive
    cases hlive

end Subscriber

namespace Delivering

/-- What holds in every state. -/
structure Sound (s : Delivering) : Prop where
  hub : Bookkept s.hub
  kept : ∀ p ∈ s.published, p ∈ s.hub.arrivalOrder ∨ p ∈ s.handedOver
  subscribers : ∀ c ∈ s.subscribers, c.Sound s

variable {s s' : Delivering} {message : ApiApplicationMessage}
  {hub : AppMessageHub} {p : String × String}

/-- What a publication does not drop still waits. -/
theorem mem_publish_of_not_dropped
    (hmem : p ∈ hub.arrivalOrder ++ [((canonicalMessage message).applicationId,
      applicationMessageKey (canonicalMessage message))])
    (hkept : p ∉ dropped hub message) : p ∈ (hub.publish message).arrivalOrder := by
  by_contra hgone
  exact hkept (List.mem_filter.mpr ⟨hmem, decide_eq_true hgone⟩)

theorem Sound.publish (h : s.Sound)
    (hpermits : s.Permits (.publish message)) : (s.publish message).Sound := by
  unfold Delivering.publish
  split_ifs with haccepts
  · have hbook := h.hub.publish hpermits
    have hdropped : ∀ p ∈ s.hub.arrivalOrder ++ [((canonicalMessage message).applicationId,
        applicationMessageKey (canonicalMessage message))],
        p ∉ dropped s.hub message → p ∈ (s.hub.publish message).arrivalOrder :=
      fun p hmem hgone => mem_publish_of_not_dropped hmem hgone
    -- Only what waits afterwards matters here.
    generalize dropped s.hub message = gone at hdropped ⊢
    generalize s.hub.publish message = hub at hbook hdropped ⊢
    generalize canonicalMessage message = queued at hdropped ⊢
    refine ⟨hbook, fun p hp => ?_, fun c hc => ?_⟩
    · obtain ⟨hmem, hgone⟩ := List.mem_filter.mp hp
      have hgone : p ∉ gone := of_decide_eq_true hgone
      rcases List.mem_append.mp hmem with hmem | hmem
      · rcases h.kept p hmem with hwaits | hhanded
        · exact Or.inl (hdropped p (List.mem_append_left _ hwaits) hgone)
        · exact Or.inr hhanded
      · exact Or.inl (hdropped p (List.mem_append_right _ hmem) hgone)
    · obtain ⟨old, hold, rfl⟩ := List.mem_map.mp hc
      refine (h.subscribers old hold).owe rfl rfl rfl fun p hgone hwaits => ?_
      exact hdropped p (List.mem_append_left _ hwaits) hgone
  · exact h

variable {index : Nat}

theorem Sound.send (h : s.Sound) (hmessage : s.unsent[index]? = some message) :
    Sound { s with log := s.log ++ [message], unsent := s.unsent.eraseIdx index } := by
  refine ⟨h.hub, h.kept, fun c hc => ?_⟩
  have hsound := h.subscribers c hc
  obtain ⟨hlt, hget⟩ := List.getElem?_eq_some_iff.mp hmessage
  refine hsound.mono (by simp) (fun _ hp => hp) ?_ fun _ _ _ hwaits => Or.inr hwaits
  rintro key ⟨m, hm, hm'⟩
  refine ⟨m, ?_, hm'⟩
  -- The message goes from the end of one list to the end of the other.
  have hperm := List.getElem_cons_eraseIdx_perm hlt
  rw [hget] at hperm
  rw [List.drop_append_of_le_length hsound.position_le]
  simp only [List.mem_append, List.mem_singleton] at hm ⊢
  rw [← hperm.mem_iff, List.mem_cons] at hm
  tauto

theorem Sound.subscribe (h : s.Sound) (appId : String) : (s.subscribe appId).Sound := by
  refine ⟨h.hub, h.kept, fun c hc => ?_⟩
  rcases List.mem_append.mp hc with hc | hc
  · exact (h.subscribers c hc).mono le_rfl (fun _ hp => hp) (fun _ hkey => hkey)
      fun _ _ _ hwaits => Or.inr hwaits
  obtain rfl := List.mem_singleton.mp hc
  have happ : ∀ m ∈ s.hub.snapshot appId, m.applicationId = canonicalApplicationId appId :=
    h.hub.application _
  refine ⟨⟨List.nodup_nil, fun key hkey => ?_⟩, ?_, le_rfl, happ, ?_, nofun, nofun, ?_, nofun⟩
  · obtain ⟨m, hm, rfl⟩ := List.mem_map.mp hkey
    exact Or.inr (Or.inl ⟨m, List.mem_append_left _ hm, happ m hm, rfl⟩)
  · exact Text.trimToLower_trimToLower appId
  · simp
  · intro _
    exact h.hub.nodup_queue _

variable {c : Subscriber}

/-- A step of one subscriber that leaves the hub and the broadcast alone. -/
theorem Sound.set (h : s.Sound)
    {handedOver : List (String × String)} (hhanded : ∀ p ∈ s.handedOver, p ∈ handedOver)
    (hsound : c.Sound { s with subscribers := s.subscribers.set index c, handedOver }) :
    Sound { s with subscribers := s.subscribers.set index c, handedOver } := by
  refine ⟨h.hub, fun p hp => (h.kept p hp).imp id (hhanded p), fun other hother => ?_⟩
  rcases List.mem_or_eq_of_mem_set hother with hother | rfl
  · exact (h.subscribers other hother).mono le_rfl hhanded (fun _ hkey => hkey)
      fun _ _ _ hwaits => Or.inr hwaits
  · exact hsound

/-- An acknowledged key no longer waits, and nothing else changes. -/
theorem mem_arrivalOrder_acknowledge {appId key : String}
    (hcanonical : canonicalApplicationId appId = appId) (hwaits : p ∈ hub.arrivalOrder) :
    p = (appId, key) ∨ p ∈ (hub.acknowledge appId key).arrivalOrder := by
  unfold AppMessageHub.acknowledge
  rw [hcanonical]
  dsimp only
  split_ifs
  · by_cases hp : p = (appId, key)
    · exact Or.inl hp
    · exact Or.inr ((List.mem_erase_of_ne hp).mpr hwaits)
  · exact Or.inr hwaits

theorem Sound.acknowledge (h : s.Sound) {key : String}
    (hc : s.subscribers[index]? = some c) (howes : c.owes = some key)
    (hpermits : s.Permits (.acknowledge index)) :
    Sound { s with
      hub := s.hub.acknowledge c.appId key
      subscribers := s.subscribers.set index { c with owes := none } } := by
  have hmem := List.mem_of_getElem? hc
  have hsound := h.subscribers c hmem
  have hwritten := hsound.owes_written key howes
  have hkept : ∀ p ∈ s.hub.arrivalOrder,
      p = (c.appId, key) ∨ p ∈ (s.hub.acknowledge c.appId key).arrivalOrder :=
    fun p hp => mem_arrivalOrder_acknowledge hsound.canonical hp
  have hmono : ∀ other ∈ s.subscribers, Subscriber.Sound { s with
      hub := s.hub.acknowledge c.appId key
      subscribers := s.subscribers.set index { c with owes := none } } other := by
    intro other hother
    have hsame := h.subscribers other hother
    refine hsame.mono le_rfl (fun _ hp => hp) (fun _ hkey => hkey)
      fun hresync key' howed hwaits => ?_
    rcases hkept _ hwaits with heq | hwaits
    · obtain ⟨happ, rfl⟩ := Prod.mk.inj heq
      have hdelivered := hpermits c hc key' howes other hother hresync happ howed
      exact Or.inl ((hsame.mem_delivered key').mp hdelivered)
    · exact Or.inr hwaits
  refine ⟨h.hub.acknowledge _ _, fun p hp => ?_, fun other hother => ?_⟩
  · rcases h.kept p hp with hwaits | hhanded
    · rcases hkept p hwaits with rfl | hwaits
      · exact Or.inr (hsound.handed key hwritten)
      · exact Or.inl hwaits
    · exact Or.inr hhanded
  · rcases List.mem_or_eq_of_mem_set hother with hother | rfl
    · exact hmono other hother
    · exact { hmono c hmem with owes_written := nofun }

theorem Sound.next (h : s.Sound) {label : Label} (hpermits : s.Permits label)
    (hnext : s.next label = some s') : s'.Sound := by
  cases label with
  | publish message =>
    cases hnext
    exact h.publish hpermits
  | send index =>
    obtain ⟨message, hmessage, rfl⟩ := Option.map_eq_some_iff.mp hnext
    exact h.send hmessage
  | subscribe appId =>
    cases hnext
    exact h.subscribe appId
  | disconnect index =>
    cases hnext
    refine ⟨h.hub, h.kept, fun c hc => ?_⟩
    exact (h.subscribers c (List.mem_of_mem_eraseIdx hc)).mono le_rfl (fun _ hp => hp)
      (fun _ hkey => hkey) fun _ _ _ hwaits => Or.inr hwaits
  | handle index =>
    obtain ⟨c, hc, hstep⟩ := Option.bind_eq_some_iff.mp hnext
    split at hstep
    case h_1 message rest howes hrest =>
      cases hstep
      refine h.set (fun p hp => List.mem_cons_of_mem _ hp) ?_
      exact (h.subscribers c (List.mem_of_getElem? hc)).handled hrest rfl rfl rfl
    case h_2 => cases hstep
  | acknowledge index =>
    obtain ⟨c, hc, hstep⟩ := Option.bind_eq_some_iff.mp hnext
    obtain ⟨key, howes, rfl⟩ := Option.map_eq_some_iff.mp hstep
    exact h.acknowledge hc howes hpermits
  | receive index =>
    obtain ⟨c, hc, hstep⟩ := Option.bind_eq_some_iff.mp hnext
    split_ifs at hstep with hready
    obtain ⟨c', hreceived, rfl⟩ := Option.map_eq_some_iff.mp hstep
    have hsound := (h.subscribers c (List.mem_of_getElem? hc)).received hready.1 hready.2.2
      hreceived (hpermits c hc)
    refine h.set (fun _ hp => hp) ?_
    exact hsound.mono le_rfl (fun _ hp => hp) (fun _ hkey => hkey) fun _ _ _ hwaits => Or.inr hwaits
  | resynchronise index =>
    obtain ⟨c, hc, hstep⟩ := Option.bind_eq_some_iff.mp hnext
    split_ifs at hstep with hresync
    cases hstep
    have hsound := (h.subscribers c (List.mem_of_getElem? hc)).resynchronise h.hub.toAligned hresync
    refine h.set (fun _ hp => hp) ?_
    exact hsound.mono le_rfl (fun _ hp => hp) (fun _ hkey => hkey) fun _ _ _ hwaits => Or.inr hwaits

theorem initial_sound : initial.Sound := ⟨new_bookkept, nofun, nofun⟩

theorem sound_of_reachable (reached : (system.restrict Permits).Reachable s) : s.Sound := by
  induction reached with
  | start hinit => exact hinit ▸ initial_sound
  | next label _ hstep ih => exact ih.next hstep.1 hstep.2

end Delivering

/-- Nothing is left for a subscriber to do until something is published. -/
structure Subscriber.CaughtUp (s : Delivering) (c : Subscriber) : Prop where
  rest : c.rest = []
  resync : c.resync = false
  position : c.position = s.log.length
  unsent : s.unsent = []

theorem Subscriber.Served.count_eq_one {s : Delivering} {c : Subscriber} (h : c.Served s)
    (hidle : c.CaughtUp s) {key : String} (hkey : key ∈ c.owed) : c.written.count key = 1 := by
  rcases h.reached key hkey with hwritten | ⟨m, hm, _⟩ | ⟨hresync, _⟩
  · exact List.count_eq_one_of_mem h.once hwritten
  · rw [hidle.rest, hidle.position, hidle.unsent, List.drop_length] at hm
    cases hm
  · rw [hidle.resync] at hresync
    cases hresync

/-- While no key is queued that waits already, the queues, the list of arrivals and the counter
agree and keep their limits, in every sequence of calls; and while in addition what a subscriber
has lost of the broadcast waits until it takes another snapshot, every message that is queued and
not dropped waits until it has been written to a subscriber, and each subscriber gets what it is
owed exactly once. -/
theorem messages_are_delivered (hub : AppMessageHub) (s : Delivering) :
    ((AppMessageHub.system.restrict Remembers).Reachable hub →
      Bookkept hub ∧ ∀ apps : Finset String, (∀ appId ∉ apps, hub.queues appId = []) →
        ∑ appId ∈ apps, (hub.queues appId).length = hub.pendingCount) ∧
    ((Delivering.system.restrict Delivering.Permits).Reachable s →
      Bookkept s.hub ∧ (∀ p ∈ s.published, p ∈ s.hub.arrivalOrder ∨ p ∈ s.handedOver) ∧
      ∀ c ∈ s.subscribers, c.Served s ∧
        (c.CaughtUp s → ∀ key ∈ c.owed, c.written.count key = 1)) := by
  refine ⟨fun reached => ?_, fun reached => ?_⟩
  · have h := bookkept_of_reachable reached
    exact ⟨h, fun apps hall => h.sum_queues hall⟩
  · have h := Delivering.sound_of_reachable reached
    refine ⟨h.hub, h.kept, fun c hc => ⟨(h.subscribers c hc).toServed, fun hidle key hkey => ?_⟩⟩
    exact (h.subscribers c hc).count_eq_one hidle hkey

/-! ## A small instance -/

namespace Delivering

instance decidablePermits (s : Delivering) : ∀ label, Decidable (s.Permits label)
  | .publish message => inferInstanceAs (Decidable (s.hub.accepts message →
      applicationMessageKey (canonicalMessage message) ∉ s.hub.arrivalOrder.map Prod.snd))
  | .receive index => inferInstanceAs (Decidable (∀ c ∈ s.subscribers[index]?,
      ∀ message ∈ c.skips s.log, message.applicationId = c.appId →
        applicationMessageKey message ∈ c.owed → applicationMessageKey message ∈ c.delivered ∨
          (c.appId, applicationMessageKey message) ∈ s.hub.arrivalOrder))
  | .acknowledge index => inferInstanceAs (Decidable (∀ c ∈ s.subscribers[index]?,
      ∀ key ∈ c.owes, ∀ other ∈ s.subscribers, other.resync = true → other.appId = c.appId →
        key ∈ other.owed → key ∈ other.delivered))
  | .send _ => .isTrue trivial
  | .subscribe _ => .isTrue trivial
  | .disconnect _ => .isTrue trivial
  | .handle _ => .isTrue trivial
  | .resynchronise _ => .isTrue trivial

def sampleMessage : ApiApplicationMessage := ⟨"a", "m", "p", ""⟩

/-- Two subscribers, and a message that the first of them has written and acknowledged. -/
def sampleLabels : List Label :=
  [.subscribe "a", .subscribe "a", .publish sampleMessage, .send 0, .receive 0, .handle 0,
    .acknowledge 0]

def sampleServed : Delivering :=
  (LabelledSystem.runWithin next Permits initial sampleLabels).get (by decide +kernel)

theorem sampleServed_reached : (system.restrict Permits).Reachable sampleServed := by
  have hstep : ∀ s label s', s.Permits label → s.next label = some s' →
      (system.restrict Permits).step s label s' := fun _ _ _ hpermits hnext => ⟨hpermits, hnext⟩
  exact LabelledSystem.Reachable.of_runWithin hstep (.start rfl) (Option.some_get _).symm

end Delivering

theorem messages_are_delivered_sample :
    Delivering.sampleServed.subscribers.map (·.written) = [["a\x00p\x00m"], []] ∧
      ∀ c ∈ Delivering.sampleServed.subscribers, c.Served Delivering.sampleServed :=
  ⟨by decide +kernel, fun c hc =>
    (((messages_are_delivered AppMessageHub.new _).2 Delivering.sampleServed_reached).2.2 c hc).1⟩

/-! ## A subscriber that falls behind -/

namespace Delivering

/-- A message for another application. -/
def otherMessage (n : Nat) : ApiApplicationMessage :=
  ⟨"b", String.ofList (List.replicate (n + 2) 'x'), "p", ""⟩

theorem length_otherMessage (n : Nat) :
    (applicationMessageKey (otherMessage n)).length = n + 6 := by
  have hprefix : "b\x00p\x00".length = 4 := by decide
  simp [applicationMessageKey, otherMessage, String.length_append, hprefix]
  omega

theorem canonical_otherMessage (n : Nat) : canonicalMessage (otherMessage n) = otherMessage n := by
  have happ : canonicalApplicationId "b" = "b" := by decide +kernel
  simp [canonicalMessage, otherMessage, happ]

/-- A publication that finds room everywhere queues its message and drops nothing. -/
theorem publish_of_room {hub : AppMessageHub} {message : ApiApplicationMessage}
    (hcanonical : canonicalMessage message = message)
    (hnew : applicationMessageKey message ∉ hub.seen)
    (hseen : hub.seenOrder.length < maxSeenApplicationMessages)
    (hqueue : (hub.queues message.applicationId).length < maxPendingApplicationMessagesPerApp)
    (hpending : hub.pendingCount < maxPendingApplicationMessages) :
    hub.publish message =
      { hub with
        queues := Function.update hub.queues message.applicationId
          (hub.queues message.applicationId ++ [message])
        arrivalOrder := hub.arrivalOrder ++ [(message.applicationId, applicationMessageKey message)]
        seen := insert (applicationMessageKey message) hub.seen
        seenOrder := hub.seenOrder ++ [applicationMessageKey message]
        pendingCount := hub.pendingCount + 1 } := by
  have hforget : ∀ order seen, order.length ≤ maxSeenApplicationMessages →
      forgetSeen order seen = (order, seen) := by
    intro order seen hle
    cases order with
    | nil => rfl
    | cons key order => rw [forgetSeen, if_neg (by omega)]
  have htrimQueue : ∀ appId queue (h : AppMessageHub),
      queue.length ≤ maxPendingApplicationMessagesPerApp → trimQueue appId queue h = h := by
    intro appId queue h hle
    cases queue with
    | nil => rfl
    | cons message queue => rw [trimQueue, if_neg (by omega)]
  have htrimArrivals : ∀ order (h : AppMessageHub),
      h.pendingCount ≤ maxPendingApplicationMessages → trimArrivals order h = h := by
    intro order h hle
    cases order with
    | nil => rw [trimArrivals, if_neg (by omega)]
    | cons oldest order => rw [trimArrivals, if_neg (by omega)]
  have hremember : hub.remember (applicationMessageKey message) =
      { hub with
        seen := insert (applicationMessageKey message) hub.seen
        seenOrder := hub.seenOrder ++ [applicationMessageKey message] } := by
    rw [AppMessageHub.remember, hforget _ _ (by simpa using Nat.succ_le_of_lt hseen)]
  rw [AppMessageHub.publish, hcanonical, publishCanonical, if_neg hnew, hremember]
  dsimp only
  rw [htrimQueue _ _ _ (by simpa [AppMessageHub.enqueue] using Nat.succ_le_of_lt hqueue),
    htrimArrivals _ _ (by simpa [AppMessageHub.enqueue] using Nat.succ_le_of_lt hpending)]
  rfl

/-- After as many messages for another application. -/
structure Flooded (n : Nat) (s : Delivering) : Prop where
  reached : system.Reachable s
  subscribers : s.subscribers = sampleServed.subscribers
  unsent : s.unsent = []
  log : s.log = sampleMessage :: (List.range n).map otherMessage
  seen : ∀ key ∈ s.hub.seen, key.length < n + 6
  seenOrder : s.hub.seenOrder.length ≤ n + 1
  queue : (s.hub.queues "b").length = n
  other : s.hub.queues "a" = []
  arrivals : ∀ p ∈ s.hub.arrivalOrder, p.1 = "b"
  pending : s.hub.pendingCount = n

theorem Flooded.start : Flooded 0 sampleServed where
  reached := sampleServed_reached.of_restrict
  subscribers := rfl
  unsent := by decide +kernel
  log := by decide +kernel
  seen := by decide +kernel
  seenOrder := by decide +kernel
  queue := by decide +kernel
  other := by decide +kernel
  arrivals := by decide +kernel
  pending := by decide +kernel

theorem sampleServed_apps : ∀ c ∈ sampleServed.subscribers, c.appId = "a" := by decide +kernel

theorem Flooded.next {n : Nat} {s : Delivering} (h : Flooded n s) (hn : n < 1024) :
    ∃ s', Flooded (n + 1) s' := by
  have hkey := length_otherMessage n
  have hnew : applicationMessageKey (otherMessage n) ∉ s.hub.seen := fun hmem =>
    absurd (h.seen _ hmem) (by omega)
  have happ : (otherMessage n).applicationId = "b" := rfl
  have hpublish := publish_of_room (canonical_otherMessage n) hnew
    (by rw [maxSeenApplicationMessages]; have := h.seenOrder; omega)
    (by rw [happ, h.queue, maxPendingApplicationMessagesPerApp]; omega)
    (by rw [h.pending, maxPendingApplicationMessages]; omega)
  have hgone : dropped s.hub (otherMessage n) = [] := by
    rw [dropped, hpublish, canonical_otherMessage]
    exact List.filter_eq_nil_iff.mpr fun p hp hnot => of_decide_eq_true hnot hp
  have haccepts : s.hub.accepts (otherMessage n) := by
    rw [AppMessageHub.accepts, canonical_otherMessage]
    exact hnew
  -- No subscriber listens to the other application.
  have hsubscribers : s.subscribers.map (fun c => c.owe [] (otherMessage n)) = s.subscribers := by
    refine (List.map_congr_left fun c hc => ?_).trans (List.map_id _)
    have hother : c.appId ≠ (otherMessage n).applicationId := by
      rw [sampleServed_apps c (h.subscribers ▸ hc), happ]
      decide
    simp [Subscriber.owe, hother]
  have hstep : system.step s (.publish (otherMessage n)) (s.publish (otherMessage n)) := rfl
  have hpublished := h.reached.next _ hstep
  rw [Delivering.publish, if_pos haccepts, hgone, canonical_otherMessage] at hpublished
  dsimp only at hpublished
  rw [hsubscribers, hpublish] at hpublished
  have hsent := hpublished.next (.send 0) (by
    simp only [h.unsent, List.nil_append]
    rfl)
  refine ⟨_, hsent, h.subscribers, rfl, ?_, ?_, ?_, ?_, ?_, ?_, ?_⟩
  · dsimp only
    rw [h.log, List.range_succ, List.map_append]
    rfl
  · intro key hmem
    rcases Finset.mem_insert.mp hmem with rfl | hmem
    · omega
    · exact (h.seen key hmem).trans (by omega)
  · simpa using h.seenOrder
  · simp [happ, h.queue]
  · simp [happ, h.other]
  · intro p hp
    rcases List.mem_append.mp hp with hp | hp
    · exact h.arrivals p hp
    · obtain rfl := List.mem_singleton.mp hp
      exact happ
  · simp [h.pending]

theorem flooded (n : Nat) (hn : n ≤ 1024) : ∃ s, Flooded n s := by
  induction n with
  | zero => exact ⟨_, Flooded.start⟩
  | succ n ih =>
    obtain ⟨s, h⟩ := ih (by omega)
    exact h.next (by omega)

/-- The subscriber that has not received anything. -/
def sampleBehind : Subscriber := sampleServed.subscribers[1]?.get (by decide +kernel)

/-- It is told that it has lost the first broadcast. -/
theorem sampleBehind_received {log : List ApiApplicationMessage} (hlog : log.length = 1025) :
    sampleBehind.received log =
      some { sampleBehind with position := 1, live := true, resync := true } := by
  have hposition : sampleBehind.position = 0 := by decide +kernel
  have hfar : ¬ log.length - sampleBehind.position ≤ broadcastCapacity := by
    rw [hlog, hposition]
    decide
  rw [Subscriber.received, if_neg hfar, hlog]
  rfl

end Delivering

/-- The second subscriber loses the message that the first has acknowledged: it is not written to
it, is not on its way and does not wait. -/
theorem lagging_subscriber_loses :
    ∃ s, Delivering.system.Reachable s ∧ ∃ c ∈ s.subscribers, ∃ key ∈ c.owed,
      key ∉ c.written ∧ ¬ c.Awaits s key ∧ c.resync = false ∧
        (c.appId, key) ∉ s.hub.arrivalOrder := by
  obtain ⟨s, h⟩ := Delivering.flooded 1024 le_rfl
  have hc : s.subscribers[1]? = some Delivering.sampleBehind := by
    rw [h.subscribers]
    exact (Option.some_get _).symm
  have happ : Delivering.sampleBehind.appId = "a" := by decide +kernel
  have hready : Delivering.sampleBehind.rest = [] ∧ Delivering.sampleBehind.owes = none ∧
      Delivering.sampleBehind.resync = false := by decide +kernel
  have hlength : s.log.length = 1025 := by simp [h.log]
  have hlost := h.reached.next (.receive 1) (by
    change Delivering.next _ _ = some _
    simp only [Delivering.next, hc, Option.bind_some, if_pos hready,
      Delivering.sampleBehind_received hlength, Option.map_some]
    rfl)
  have hlt : 1 < s.subscribers.length := (List.getElem?_eq_some_iff.mp hc).1
  have hsnapshot := hlost.next (.resynchronise 1) (by
    change Delivering.next _ _ = some _
    simp only [Delivering.next, List.getElem?_set_self hlt, Option.bind_some, if_true, List.set_set]
    rfl)
  have hqueue : s.hub.snapshot Delivering.sampleBehind.appId = [] := by
    have hcanonical : canonicalApplicationId "a" = "a" := by decide +kernel
    rw [AppMessageHub.snapshot, happ, hcanonical, h.other]
  refine ⟨_, hsnapshot, _, List.mem_of_getElem? (List.getElem?_set_self hlt), "a\x00p\x00m",
    ?_, ?_, ?_, rfl, ?_⟩
  · change "a\x00p\x00m" ∈ Delivering.sampleBehind.owed
    decide +kernel
  · change "a\x00p\x00m" ∉ Delivering.sampleBehind.written
    decide +kernel
  · rintro ⟨m, hm, happ', -⟩
    dsimp only at hm happ'
    rw [hqueue, h.log, h.unsent, happ] at *
    simp only [List.drop_one, List.tail_cons, List.nil_append, List.append_nil, List.mem_map] at hm
    obtain ⟨i, _, rfl⟩ := hm
    exact absurd happ' (by simp [Delivering.otherMessage])
  · intro hmem
    have hb := h.arrivals _ hmem
    dsimp only at hb
    rw [happ] at hb
    exact absurd hb (by decide)

end VeilKnit.Api
