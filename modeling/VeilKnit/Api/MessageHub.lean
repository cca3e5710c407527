import Mathlib.Algebra.BigOperators.Group.Finset.Basic
import VeilKnit.Library.LabelledSystem
import VeilKnit.Library.Text

/-!
# The hub of application messages

Messages for an application wait in a queue until a subscriber acknowledges them. A list of all
that wait, in the order of their arrival, tells which one has to go when there are too many, and a
bounded set of the keys seen last tells which message is a repetition.

The three forget at different times. A key that is forgotten while its message still waits can be
queued a second time; while this does not happen, the queues, the list and the counter agree.
-/

namespace VeilKnit.Api

open Library
open scoped BigOperators

def maxPendingApplicationMessages : Nat := 16384

def maxPendingApplicationMessagesPerApp : Nat := 4096

def maxSeenApplicationMessages : Nat := 32768

structure ApiApplicationMessage where
  applicationId : String
  messageIdHex : String
  senderMainDht : String
  payloadBase64 : String
  deriving DecidableEq

def applicationMessageKey (message : ApiApplicationMessage) : String :=
  message.applicationId ++ "\x00" ++ message.senderMainDht ++ "\x00" ++ message.messageIdHex

def canonicalApplicationId (value : String) : String := Text.trimToLower value

/-- The state of the hub. An application without a queue has an empty one. -/
structure AppMessageHub where
  queues : String → List ApiApplicationMessage
  arrivalOrder : List (String × String)
  seen : Finset String
  seenOrder : List String
  pendingCount : Nat

namespace AppMessageHub

def new : AppMessageHub where
  queues _ := []
  arrivalOrder := []
  seen := ∅
  seenOrder := []
  pendingCount := 0

/-- Forget the keys seen first until few enough are left. -/
def forgetSeen : List String → Finset String → List String × Finset String
  | [], seen => ([], seen)
  | expired :: order, seen =>
    if maxSeenApplicationMessages < (expired :: order).length then
      forgetSeen order (seen.erase expired)
    else (expired :: order, seen)

/-- Drop the messages of an application that came first until few enough are left. -/
def trimQueue (appId : String) : List ApiApplicationMessage → AppMessageHub → AppMessageHub
  | [], hub => hub
  | removed :: queue, hub =>
    if maxPendingApplicationMessagesPerApp < (removed :: queue).length then
      trimQueue appId queue
        { hub with
          queues := Function.update hub.queues appId queue
          pendingCount := hub.pendingCount - 1
          arrivalOrder := hub.arrivalOrder.erase (appId, applicationMessageKey removed) }
    else hub

/-- Drop the messages that came first until few enough are left of all applications. -/
def trimArrivals : List (String × String) → AppMessageHub → AppMessageHub
  | [], hub =>
    if maxPendingApplicationMessages < hub.pendingCount then { hub with pendingCount := 0 }
    else hub
  | (oldApp, oldKey) :: order, hub =>
    if maxPendingApplicationMessages < hub.pendingCount then
      trimArrivals order
        { hub with
          arrivalOrder := order
          queues := Function.update hub.queues oldApp
            ((hub.queues oldApp).eraseP (applicationMessageKey · = oldKey))
          pendingCount :=
            if ∃ message ∈ hub.queues oldApp, applicationMessageKey message = oldKey then
              hub.pendingCount - 1
            else hub.pendingCount }
    else hub

/-- Append a message to the queue of its application. -/
def enqueue (hub : AppMessageHub) (message : ApiApplicationMessage) : AppMessageHub :=
  let appId := message.applicationId
  { hub with
    queues := Function.update hub.queues appId (hub.queues appId ++ [message])
    arrivalOrder := hub.arrivalOrder ++ [(appId, applicationMessageKey message)]
    pendingCount := hub.pendingCount + 1 }

/-- Note that a key has been seen. -/
def remember (hub : AppMessageHub) (key : String) : AppMessageHub :=
  let forgotten := forgetSeen (hub.seenOrder ++ [key]) (insert key hub.seen)
  { hub with seenOrder := forgotten.1, seen := forgotten.2 }

/-- Queue a message whose application is canonical, unless it is a repetition. -/
def publishCanonical (hub : AppMessageHub) (message : ApiApplicationMessage) : AppMessageHub :=
  if applicationMessageKey message ∈ hub.seen then hub
  else
    let hub := (hub.remember (applicationMessageKey message)).enqueue message
    let hub := trimQueue message.applicationId (hub.queues message.applicationId) hub
    trimArrivals hub.arrivalOrder hub

def canonicalMessage (message : ApiApplicationMessage) : ApiApplicationMessage :=
  { message with applicationId := canonicalApplicationId message.applicationId }

/-- The part of a publication that holds the lock. -/
def publish (hub : AppMessageHub) (message : ApiApplicationMessage) : AppMessageHub :=
  hub.publishCanonical (canonicalMessage message)

/-- Whether a publication goes on to broadcast its message. -/
def accepts (hub : AppMessageHub) (message : ApiApplicationMessage) : Prop :=
  applicationMessageKey (canonicalMessage message) ∉ hub.seen

instance (hub : AppMessageHub) (message : ApiApplicationMessage) :
    Decidable (hub.accepts message) :=
  inferInstanceAs (Decidable (_ ∉ hub.seen))

/-- The messages that wait for an application. -/
def snapshot (hub : AppMessageHub) (appId : String) : List ApiApplicationMessage :=
  hub.queues (canonicalApplicationId appId)

def acknowledge (hub : AppMessageHub) (appId key : String) : AppMessageHub :=
  let appId := canonicalApplicationId appId
  if ∃ message ∈ hub.queues appId, applicationMessageKey message = key then
    { hub with
      queues := Function.update hub.queues appId
        ((hub.queues appId).eraseP (applicationMessageKey · = key))
      pendingCount := hub.pendingCount - 1
      arrivalOrder := hub.arrivalOrder.erase (appId, key) }
  else hub

/-! ## Bookkeeping -/

/-- The queues, the list of arrivals and the counter agree, and no key waits twice. -/
structure Aligned (hub : AppMessageHub) : Prop where
  count : hub.pendingCount = hub.arrivalOrder.length
  order : ∀ appId, (hub.arrivalOrder.filter (·.1 = appId)).map Prod.snd =
    (hub.queues appId).map applicationMessageKey
  application : ∀ appId, ∀ message ∈ hub.queues appId, message.applicationId = appId
  unique : (hub.arrivalOrder.map Prod.snd).Nodup

/-- In addition nothing is longer than it may be. -/
structure Bookkept (hub : AppMessageHub) : Prop extends Aligned hub where
  perApp : ∀ appId, (hub.queues appId).length ≤ maxPendingApplicationMessagesPerApp
  total : hub.arrivalOrder.length ≤ maxPendingApplicationMessages

variable {hub : AppMessageHub} {appId key : String}

namespace Aligned

theorem mem_arrivalOrder (h : Aligned hub) : (appId, key) ∈ hub.arrivalOrder ↔
      ∃ message ∈ hub.queues appId, applicationMessageKey message = key := by
  have hkeys : key ∈ (hub.arrivalOrder.filter (·.1 = appId)).map Prod.snd ↔
      key ∈ (hub.queues appId).map applicationMessageKey := by rw [h.order]
  rw [List.mem_map, List.mem_map] at hkeys
  rw [← hkeys]
  constructor
  · intro hmem
    exact ⟨(appId, key), List.mem_filter.mpr ⟨hmem, by simp⟩, rfl⟩
  · rintro ⟨⟨app, key'⟩, hmem, rfl⟩
    obtain ⟨hmem', happ⟩ := List.mem_filter.mp hmem
    obtain rfl : app = appId := by simpa using happ
    exact hmem'

theorem nodup (h : Aligned hub) : hub.arrivalOrder.Nodup := h.unique.of_map

/-- The keys of one queue are different. -/
theorem nodup_queue (h : Aligned hub) (appId : String) :
    ((hub.queues appId).map applicationMessageKey).Nodup := by
  rw [← h.order]
  exact h.unique.sublist (List.filter_sublist.map _)

/-- The counter is the sum of the lengths of the queues. -/
theorem sum_queues (h : Aligned hub) {apps : Finset String}
    (hall : ∀ appId ∉ apps, hub.queues appId = []) :
    ∑ appId ∈ apps, (hub.queues appId).length = hub.pendingCount := by
  have hlength : ∀ appId, (hub.queues appId).length =
      Multiset.count appId (hub.arrivalOrder.map Prod.fst : Multiset String) := by
    intro appId
    have horder := congrArg List.length (h.order appId)
    rw [List.length_map, List.length_map] at horder
    rw [← horder, Multiset.coe_count, List.count, List.countP_map, List.countP_eq_length_filter]
    congr 1
  rw [Finset.sum_congr rfl fun appId _ => hlength appId, h.count, Multiset.sum_count_eq_card]
  · simp
  intro appId happId
  by_contra hout
  obtain ⟨⟨app, key⟩, hmem, rfl⟩ := List.mem_map.mp (Multiset.mem_coe.mp happId)
  obtain ⟨message, hmessage, _⟩ := h.mem_arrivalOrder.mp hmem
  rw [hall app hout] at hmessage
  cases hmessage

end Aligned

/-- The hub without one of its messages. -/
def without (hub : AppMessageHub) (appId key : String) : AppMessageHub :=
  { hub with
    queues := Function.update hub.queues appId
      ((hub.queues appId).eraseP (applicationMessageKey · = key))
    pendingCount := hub.pendingCount - 1
    arrivalOrder := hub.arrivalOrder.erase (appId, key) }

theorem length_queues_without_le (hub : AppMessageHub) (appId key app : String) :
    ((hub.without appId key).queues app).length ≤ (hub.queues app).length := by
  by_cases happ : app = appId
  · subst happ
    simpa [without] using (List.eraseP_sublist (l := hub.queues app)).length_le
  · simp [without, Function.update_of_ne happ]

/-- Under a function without repetitions the first match is the only one. -/
theorem eraseP_eq_filter {α β : Type} [DecidableEq β] {f : α → β} {l : List α} (b : β)
    (h : (l.map f).Nodup) : l.eraseP (f · = b) = l.filter (f · ≠ b) := by
  induction l with
  | nil => rfl
  | cons a l ih =>
    obtain ⟨hnew, hrest⟩ := List.nodup_cons.mp h
    by_cases hb : f a = b
    · have hkeep : l.filter (f · ≠ b) = l := by
        refine List.filter_eq_self.mpr fun x hx => ?_
        have hne : f x ≠ b := fun hx' => hnew (List.mem_map.mpr ⟨x, hx, hx'.trans hb.symm⟩)
        simpa using hne
      rw [List.eraseP_cons_of_pos (by simpa using hb), List.filter_cons_of_neg (by simpa using hb),
        hkeep]
    · rw [List.eraseP_cons_of_neg (by simpa using hb), ih hrest,
        List.filter_cons_of_pos (by simpa using hb)]

theorem Aligned.without (h : Aligned hub) (hmem : (appId, key) ∈ hub.arrivalOrder) :
    Aligned (hub.without appId key) where
  count := by
    change hub.pendingCount - 1 = (hub.arrivalOrder.erase (appId, key)).length
    rw [List.length_erase_of_mem hmem, h.count]
  order app := by
    change ((hub.arrivalOrder.erase (appId, key)).filter (·.1 = app)).map Prod.snd = _
    rw [h.nodup.erase_eq_filter]
    by_cases happ : app = appId
    · subst happ
      simp only [AppMessageHub.without, Function.update_self]
      rw [eraseP_eq_filter key (h.nodup_queue app)]
      -- Both sides are the keys of the queue without one.
      have hright : ((hub.queues app).filter (applicationMessageKey · ≠ key)).map
          applicationMessageKey =
          ((hub.queues app).map applicationMessageKey).filter (· ≠ key) := by
        rw [List.filter_map]
        rfl
      have hleft : ((hub.arrivalOrder.filter (· != (app, key))).filter (·.1 = app)).map
          Prod.snd = ((hub.arrivalOrder.filter (·.1 = app)).map Prod.snd).filter (· ≠ key) := by
        rw [List.filter_map, List.filter_filter, List.filter_filter]
        congr 1
        refine List.filter_congr fun p _ => ?_
        obtain ⟨a, k⟩ := p
        by_cases ha : a = app <;> by_cases hk : k = key <;> simp [ha, hk]
      rw [hright, ← h.order app]
      exact hleft
    simp only [AppMessageHub.without, Function.update_of_ne happ]
    rw [← h.order app, List.filter_filter]
    congr 1
    refine List.filter_congr fun p _ => ?_
    obtain ⟨a, k⟩ := p
    by_cases ha : a = app
    · subst ha
      simp [happ]
    · simp [ha]
  application app message hmessage := by
    by_cases happ : app = appId
    · subst happ
      simp only [AppMessageHub.without, Function.update_self] at hmessage
      exact h.application app message (List.mem_of_mem_eraseP hmessage)
    · simp only [AppMessageHub.without, Function.update_of_ne happ] at hmessage
      exact h.application app message hmessage
  unique := h.unique.sublist (List.erase_sublist.map _)

/-- What one removal and then more of them leave. -/
structure Trimmed (hub hub' : AppMessageHub) : Prop where
  aligned : Aligned hub'
  arrivals : hub'.arrivalOrder.Sublist hub.arrivalOrder
  queues : ∀ appId, (hub'.queues appId).length ≤ (hub.queues appId).length

theorem Trimmed.refl (h : Aligned hub) : Trimmed hub hub := ⟨h, List.Sublist.refl _, fun _ => le_rfl⟩

theorem Trimmed.without {hub' : AppMessageHub} (h : Trimmed (hub.without appId key) hub') :
    Trimmed hub hub' where
  aligned := h.aligned
  arrivals := h.arrivals.trans List.erase_sublist
  queues app := (h.queues app).trans (length_queues_without_le hub appId key app)

theorem trimQueue_spec (appId : String) (queue : List ApiApplicationMessage) {hub : AppMessageHub}
    (h : Aligned hub) (hqueue : hub.queues appId = queue) :
    Trimmed hub (trimQueue appId queue hub) ∧ ((trimQueue appId queue hub).queues appId).length ≤
        maxPendingApplicationMessagesPerApp := by
  induction queue generalizing hub with
  | nil =>
    refine ⟨Trimmed.refl h, ?_⟩
    rw [trimQueue, hqueue]
    exact Nat.zero_le _
  | cons removed queue ih =>
    unfold trimQueue
    split_ifs with hlong
    · have hnext : { hub with
          queues := Function.update hub.queues appId queue
          pendingCount := hub.pendingCount - 1
          arrivalOrder := hub.arrivalOrder.erase (appId, applicationMessageKey removed) } =
          hub.without appId (applicationMessageKey removed) := by
        simp [without, hqueue]
      rw [hnext]
      have hmem : (appId, applicationMessageKey removed) ∈ hub.arrivalOrder :=
        h.mem_arrivalOrder.mpr ⟨removed, by simp [hqueue], rfl⟩
      obtain ⟨htrimmed, hshort⟩ := ih (h.without hmem) (by simp [without, hqueue])
      exact ⟨htrimmed.without, hshort⟩
    · exact ⟨Trimmed.refl h, by rw [hqueue]; exact Nat.not_lt.mp hlong⟩

theorem trimArrivals_spec (order : List (String × String)) {hub : AppMessageHub}
    (h : Aligned hub) (horder : hub.arrivalOrder = order) :
    Trimmed hub (trimArrivals order hub) ∧
      (trimArrivals order hub).arrivalOrder.length ≤ maxPendingApplicationMessages := by
  induction order generalizing hub with
  | nil =>
    have hzero : hub.pendingCount = 0 := by rw [h.count, horder]; rfl
    rw [trimArrivals, if_neg (by rw [hzero]; exact Nat.not_lt_zero _)]
    exact ⟨Trimmed.refl h, by rw [horder]; exact Nat.zero_le _⟩
  | cons oldest order ih =>
    obtain ⟨oldApp, oldKey⟩ := oldest
    unfold trimArrivals
    split_ifs with hmany hwaits
    · have hnext : { hub with
          arrivalOrder := order
          queues := Function.update hub.queues oldApp
            ((hub.queues oldApp).eraseP (applicationMessageKey · = oldKey))
          pendingCount := hub.pendingCount - 1 } = hub.without oldApp oldKey := by
        simp [without, horder]
      rw [hnext]
      have hmem : (oldApp, oldKey) ∈ hub.arrivalOrder := by simp [horder]
      obtain ⟨htrimmed, hshort⟩ := ih (h.without hmem) (by simp [without, horder])
      exact ⟨htrimmed.without, hshort⟩
    · exact absurd (h.mem_arrivalOrder.mp (by simp [horder])) hwaits
    · rw [h.count] at hmany
      exact ⟨Trimmed.refl h, Nat.not_lt.mp hmany⟩

variable {message : ApiApplicationMessage}

theorem Aligned.enqueue (h : Aligned hub)
    (hnew : applicationMessageKey message ∉ hub.arrivalOrder.map Prod.snd) :
    Aligned (hub.enqueue message) where
  count := by simp [AppMessageHub.enqueue, h.count]
  order app := by
    by_cases happ : app = message.applicationId
    · subst happ
      simp [AppMessageHub.enqueue, h.order]
    · have hne : message.applicationId ≠ app := Ne.symm happ
      simp [AppMessageHub.enqueue, Function.update_of_ne happ, hne, h.order]
  application app message' hmessage := by
    by_cases happ : app = message.applicationId
    · subst happ
      simp only [AppMessageHub.enqueue, Function.update_self, List.mem_append,
        List.mem_singleton] at hmessage
      rcases hmessage with hmessage | rfl
      · exact h.application _ _ hmessage
      · rfl
    · simp only [AppMessageHub.enqueue, Function.update_of_ne happ] at hmessage
      exact h.application _ _ hmessage
  unique := by
    simp only [AppMessageHub.enqueue, List.map_append, List.map_cons, List.map_nil]
    exact List.nodup_append.mpr ⟨h.unique, List.nodup_singleton _, fun key hkey key' hkey' heq => by
      obtain rfl := List.mem_singleton.mp hkey'
      exact hnew (heq ▸ hkey)⟩

theorem Aligned.remember (h : Aligned hub) (key : String) : Aligned (hub.remember key) :=
  ⟨h.count, h.order, h.application, h.unique⟩

/-- A publication keeps the books, unless it queues a key that waits already. -/
theorem Bookkept.publishCanonical (h : Bookkept hub)
    (hfresh : applicationMessageKey message ∉ hub.seen →
      applicationMessageKey message ∉ hub.arrivalOrder.map Prod.snd) :
    Bookkept (hub.publishCanonical message) := by
  unfold AppMessageHub.publishCanonical
  split_ifs with hseen
  · exact h
  have haligned := (h.toAligned.remember (applicationMessageKey message)).enqueue (hfresh hseen)
  obtain ⟨hqueue, hshort⟩ := trimQueue_spec message.applicationId _ haligned rfl
  obtain ⟨hall, htotal⟩ := trimArrivals_spec _ hqueue.aligned rfl
  refine ⟨hall.aligned, fun app => ?_, htotal⟩
  refine (hall.queues app).trans ?_
  by_cases happ : app = message.applicationId
  · subst happ
    exact hshort
  · refine (hqueue.queues app).trans ?_
    simpa [AppMessageHub.enqueue, AppMessageHub.remember, Function.update_of_ne happ]
      using h.perApp app

theorem Bookkept.publish (h : Bookkept hub) (hfresh : hub.accepts message →
      applicationMessageKey (canonicalMessage message) ∉ hub.arrivalOrder.map Prod.snd) :
    Bookkept (hub.publish message) :=
  h.publishCanonical hfresh

theorem Bookkept.acknowledge (h : Bookkept hub) (appId key : String) :
    Bookkept (hub.acknowledge appId key) := by
  unfold AppMessageHub.acknowledge
  dsimp only
  split_ifs with hwaits
  · refine ⟨h.toAligned.without (h.mem_arrivalOrder.mpr hwaits), fun app => ?_, ?_⟩
    · exact (length_queues_without_le hub _ key app).trans (h.perApp app)
    · exact List.erase_sublist.length_le.trans h.total
  · exact h

theorem new_bookkept : Bookkept new where
  count := rfl
  order _ := rfl
  application _ _ h := nomatch h
  unique := List.nodup_nil
  perApp _ := Nat.zero_le _
  total := Nat.zero_le _

/-! ## Calls in any order -/

inductive Call
  | publish (message : ApiApplicationMessage)
  | acknowledge (appId key : String)
  | subscribeAndSnapshot (appId : String)

def next (hub : AppMessageHub) : Call → AppMessageHub
  | .publish message => hub.publish message
  | .acknowledge appId key => hub.acknowledge appId key
  | .subscribeAndSnapshot _ => hub

def system : LabelledSystem AppMessageHub Call where
  initial hub := hub = new
  step hub call hub' := hub.next call = hub'

/-- The condition: a key that is not remembered does not wait. -/
def Remembers (hub : AppMessageHub) : Call → Prop
  | .publish message => hub.accepts message →
      applicationMessageKey (canonicalMessage message) ∉ hub.arrivalOrder.map Prod.snd
  | _ => True

theorem bookkept_of_reachable (reached : (system.restrict Remembers).Reachable hub) :
    Bookkept hub := by
  induction reached with
  | start hinit => exact hinit ▸ new_bookkept
  | next call _ hstep ih =>
    obtain ⟨hremembers, rfl⟩ := hstep
    cases call with
    | publish message => exact ih.publish hremembers
    | acknowledge appId key => exact ih.acknowledge appId key
    | subscribeAndSnapshot appId => exact ih

end AppMessageHub

end VeilKnit.Api
