import VeilKnit.Api.Connections

/-!
# Permits and responses of the local interface

A subscription that its connection does not tell apart is written by a task like any other. As long
as it is open that task has its permits and the writer of its connection: every other request of
the connection is processed and never answered, and a dozen of them leave no permit of the control
lane to anybody. Where no such subscription passes its checks, each permit is that of a request
within its time limit or of one that has a line to write, and that line can be written.
-/

namespace VeilKnit.Api

open Library

/-- The clock does not pass the time limit of a processing. -/
def Server.Timely (s : Server) : ServerLabel → Prop
  | .tick => ∀ c, ∀ task ∈ (s.connections c).tasks, task.phase = .processing →
      s.now < task.startedAt + localApiRequestTimeout
  | _ => True

def serverSystem : LabelledSystem Server ServerLabel where
  initial s := s = .start
  step s label t := s.Timely label ∧ s.next label = some t

/-! ## What is to hold -/

/-- The step writes a line of a connection, or takes its writer to do so. -/
def ServerLabel.IsWrite (c : Nat) : ServerLabel → Prop
  | .lockWriter c' _ => c' = c
  | .write c' _ => c' = c
  | .readerWrites c' => c' = c
  | _ => False

/-- The task's response can be written by writing what is to be written before it. -/
def Server.CanRespond (s : Server) (c ticket : Nat) : Prop :=
  ∃ labels : List ServerLabel, (∀ label ∈ labels, label.IsWrite c) ∧
    ∃ t, LabelledSystem.run Server.next s labels = some t ∧ ticket ∈ t.written

/-- The task is processed within the time limit, or has one line to write. -/
def Task.Bounded (now : Nat) (task : Task) : Prop :=
  (task.phase = .processing ∧ now ≤ task.startedAt + localApiRequestTimeout) ∨
    ∃ result, task.phase = .answering result ∧ streams result = false

/-- No open subscription holds a permit, and every request that has been processed can be answered,
and is answered once. -/
structure Server.Prompt (s : Server) : Prop where
  permits : ∀ lane, (s.held lane).length ≤ lane.permits ∧ ∀ ticket ∈ s.held lane,
    ∃ c, ∃ task ∈ (s.connections c).tasks, task.ticket = ticket ∧ task.Bounded s.now
  responses : ∀ c, ∀ task ∈ (s.connections c).tasks, task.phase ≠ .processing →
    s.CanRespond c task.ticket
  once : s.written.Nodup

/-- The condition: a subscription that is not told apart does not pass its checks. -/
def Server.Discerning (s : Server) : ServerLabel → Prop
  | .taskProcessed c ticket passes =>
    ∀ task ∈ s.task? c ticket, task.request.isOverlooked → passes = false
  | _ => True

/-! ## Tickets -/

/-- The tasks of all connections have tickets of their own; permits and responses go by them. -/
structure Booked (tickets : Nat → List Nat) (held : ApiWorkLane → List Nat) (written : List Nat)
    (nextTicket : Nat) : Prop where
  issued : ∀ c, ∀ n ∈ tickets c, n < nextTicket
  nodup : ∀ c, (tickets c).Nodup
  apart : ∀ c c' n, n ∈ tickets c → n ∈ tickets c' → c = c'
  owned : ∀ lane, ∀ n ∈ held lane, ∃ c, n ∈ tickets c
  permits : ∀ lane, (held lane).length ≤ lane.permits
  ended : ∀ n ∈ written, n < nextTicket ∧ ∀ c, n ∉ tickets c
  once : written.Nodup

namespace Booked

variable {tickets : Nat → List Nat} {held : ApiWorkLane → List Nat} {written : List Nat}
  {nextTicket c : Nat} {lane : ApiWorkLane}

section

variable (h : Booked tickets held written nextTicket)

include h

theorem spawn (hpermit : (held lane).length < lane.permits) :
    Booked (Function.update tickets c (nextTicket :: tickets c))
      (Function.update held lane (nextTicket :: held lane)) written (nextTicket + 1) := by
  have hmem : ∀ c' n, n ∈ Function.update tickets c (nextTicket :: tickets c) c' ↔
      (c' = c ∧ n = nextTicket) ∨ n ∈ tickets c' := by
    intro c' n
    by_cases hc : c' = c
    · subst hc
      simp
    · simp [hc]
  refine ⟨fun c' n hn => ?_, fun c' => ?_, fun c' c'' n hn hn' => ?_, fun lane' n hn => ?_,
    fun lane' => ?_, fun n hn => ?_, h.once⟩
  · obtain ⟨-, hnew⟩ | hn := (hmem c' n).mp hn
    · exact Nat.lt_succ_of_le (Nat.le_of_eq hnew)
    · exact Nat.lt_succ_of_lt (h.issued c' n hn)
  · by_cases hc : c' = c
    · subst hc
      rw [Function.update_self]
      exact List.nodup_cons.mpr ⟨fun hn => Nat.lt_irrefl _ (h.issued c' _ hn), h.nodup c'⟩
    · rw [Function.update_of_ne hc]
      exact h.nodup c'
  · obtain ⟨hc, hnew⟩ | hn := (hmem c' n).mp hn
    · obtain ⟨hc', -⟩ | hn' := (hmem c'' n).mp hn'
      · rw [hc, hc']
      · exact absurd hnew (Nat.ne_of_lt (h.issued c'' n hn'))
    · obtain ⟨-, hnew⟩ | hn' := (hmem c'' n).mp hn'
      · exact absurd hnew (Nat.ne_of_lt (h.issued c' n hn))
      · exact h.apart c' c'' n hn hn'
  · have hcases : n = nextTicket ∨ n ∈ held lane' := by
      by_cases hlane : lane' = lane
      · subst hlane
        rw [Function.update_self] at hn
        exact List.mem_cons.mp hn
      · rw [Function.update_of_ne hlane] at hn
        exact .inr hn
    obtain hnew | hn := hcases
    · exact ⟨c, (hmem c n).mpr (.inl ⟨rfl, hnew⟩)⟩
    · obtain ⟨c', hc'⟩ := h.owned lane' n hn
      exact ⟨c', (hmem c' n).mpr (.inr hc')⟩
  · by_cases hlane : lane' = lane
    · subst hlane
      rw [Function.update_self]
      exact hpermit
    · rw [Function.update_of_ne hlane]
      exact h.permits lane'
  · obtain ⟨hlt, hnone⟩ := h.ended n hn
    refine ⟨Nat.lt_succ_of_lt hlt, fun c' hn' => ?_⟩
    obtain ⟨-, hnew⟩ | hn' := (hmem c' n).mp hn'
    · exact Nat.ne_of_lt hlt hnew
    · exact hnone c' hn'

theorem release (ends : Nat → Bool) (hends : ∀ n, ends n = true → n ∈ tickets c) :
    Booked (Function.update tickets c ((tickets c).filter fun n => !ends n))
      (fun lane => (held lane).filter fun n => !ends n) written nextTicket := by
  have hsubset : ∀ c' n, n ∈ Function.update tickets c ((tickets c).filter fun n => !ends n) c' →
      n ∈ tickets c' := by
    intro c' n hn
    by_cases hc : c' = c
    · subst hc
      rw [Function.update_self] at hn
      exact List.mem_of_mem_filter hn
    · rwa [Function.update_of_ne hc] at hn
  refine ⟨fun c' n hn => h.issued c' n (hsubset c' n hn), fun c' => ?_,
    fun c' c'' n hn hn' => h.apart c' c'' n (hsubset c' n hn) (hsubset c'' n hn'),
    fun lane n hn => ?_, fun lane => Nat.le_trans (List.length_filter_le _ _) (h.permits lane),
    fun n hn => ?_, h.once⟩
  · by_cases hc : c' = c
    · subst hc
      rw [Function.update_self]
      exact (h.nodup c').filter _
    · rw [Function.update_of_ne hc]
      exact h.nodup c'
  · obtain ⟨hheld, hkept⟩ := List.mem_filter.mp hn
    obtain ⟨c', hc'⟩ := h.owned lane n hheld
    refine ⟨c', ?_⟩
    by_cases hc : c' = c
    · subst hc
      rw [Function.update_self]
      exact List.mem_filter.mpr ⟨hc', hkept⟩
    · rwa [Function.update_of_ne hc]
  · obtain ⟨hlt, hnone⟩ := h.ended n hn
    exact ⟨hlt, fun c' hn' => hnone c' (hsubset c' n hn')⟩

/-- A response is written when its task ends. -/
theorem write {n : Nat} (hlt : n < nextTicket) (hnone : ∀ c, n ∉ tickets c) (hnew : n ∉ written) :
    Booked tickets held (n :: written) nextTicket where
  issued := h.issued
  nodup := h.nodup
  apart := h.apart
  owned := h.owned
  permits := h.permits
  ended := by
    rintro m (_ | ⟨_, hm⟩)
    · exact ⟨hlt, hnone⟩
    · exact h.ended m hm
  once := List.nodup_cons.mpr ⟨hnew, h.once⟩

end

end Booked

/-! ## One connection -/

/-- Tasks keep the time limit and have a line to write in the end, and the writer is locked by a
task that writes it or by the loop. The loop writes the result of a request only when there are no
tasks. -/
structure Connection.Sound (now : Nat) (connection : Connection) : Prop where
  timely : ∀ task ∈ connection.tasks, task.phase = .processing →
    now ≤ task.startedAt + localApiRequestTimeout
  plain : ∀ task ∈ connection.tasks, task.request.isSubscription = false
  lines : ∀ task ∈ connection.tasks, ∀ result, task.phase = .answering result →
    streams result = false
  lockedByTask : ∀ n, connection.writer = some (.task n) →
    ∃ task ∈ connection.tasks, task.ticket = n ∧ task.phase ≠ .processing
  lockedByReader : connection.writer = some .reader → connection.reader = .reporting ∨
      ∃ result, connection.reader = .answering result
  alone : ∀ request result, connection.reader = .processing request ∨
    connection.reader = .answering result → connection.tasks = []
  told : ∀ request, connection.reader = .queued request ∨ connection.reader = .admitted request →
    request.isSubscription = false

/-- What a reader may be when there may be tasks. -/
def Reader.Fits (reader : Reader) (tasks : List Task) : Prop :=
  (∀ request result, reader = .processing request ∨ reader = .answering result → tasks = []) ∧
    ∀ request, reader = .queued request ∨ reader = .admitted request →
      request.isSubscription = false

namespace Connection.Sound

variable {now ticket : Nat} {connection : Connection} {reader : Reader} {request : ApiRequest}
  {result : Option ProcessResult}

section

variable (h : connection.Sound now)

include h

/-- The loop goes on, without the lock on the writer. -/
theorem setReader (hfits : reader.Fits connection.tasks)
    (hwriter : connection.writer ≠ some .reader) :
    Connection.Sound now { connection with reader := reader } where
  timely := h.timely
  plain := h.plain
  lines := h.lines
  lockedByTask := h.lockedByTask
  lockedByReader hlocked := absurd hlocked hwriter
  alone := hfits.1
  told := hfits.2

theorem writer_ne_reader (hreporting : connection.reader ≠ .reporting)
    (hanswering : ∀ result, connection.reader ≠ .answering result) :
    connection.writer ≠ some .reader := by
  intro hlocked
  obtain hreader | ⟨result, hreader⟩ := h.lockedByReader hlocked
  · exact hreporting hreader
  · exact hanswering result hreader

theorem spawn (hreader : connection.reader = .admitted request) (ticket : Nat) :
    Connection.Sound now
      { connection with
        reader := .reading
        tasks := ⟨ticket, request, now, .processing⟩ :: connection.tasks } where
  timely := by
    rintro task (_ | ⟨_, hmem⟩) hphase
    · exact Nat.le_add_right _ _
    · exact h.timely task hmem hphase
  plain := by
    rintro task (_ | ⟨_, hmem⟩)
    · exact h.told request (.inr hreader)
    · exact h.plain task hmem
  lines := by
    rintro task (_ | ⟨_, hmem⟩) result hphase
    · cases hphase
    · exact h.lines task hmem result hphase
  lockedByTask n hlocked := by
    obtain ⟨task, hmem, hticket⟩ := h.lockedByTask n hlocked
    exact ⟨task, List.mem_cons_of_mem _ hmem, hticket⟩
  lockedByReader hlocked := by
    refine absurd hlocked (h.writer_ne_reader ?_ fun result => ?_)
    · rw [hreader]
      exact nofun
    · rw [hreader]
      exact nofun
  alone := by rintro _ _ (h | h) <;> cases h
  told := by rintro _ (h | h) <;> cases h

theorem answer (hline : streams result = false)
    (hready : ∀ task ∈ connection.tasks, task.ticket = ticket → task.phase = .processing) :
    Connection.Sound now
      { connection with
        tasks := connection.tasks.map fun task =>
          if task.ticket = ticket then { task with phase := .answering result } else task } where
  timely task hmem hphase := by
    obtain ⟨before, hbefore, rfl⟩ := List.mem_map.mp hmem
    split at hphase
    case isTrue => cases hphase
    case isFalse hne =>
      rw [if_neg hne]
      exact h.timely before hbefore hphase
  plain task hmem := by
    obtain ⟨before, hbefore, rfl⟩ := List.mem_map.mp hmem
    split
    · exact h.plain before hbefore
    · exact h.plain before hbefore
  lines task hmem result' hphase := by
    obtain ⟨before, hbefore, rfl⟩ := List.mem_map.mp hmem
    split at hphase
    case isTrue =>
      cases hphase
      exact hline
    case isFalse => exact h.lines before hbefore result' hphase
  lockedByTask n hlocked := by
    obtain ⟨task, hmem, hticket, hphase⟩ := h.lockedByTask n hlocked
    refine ⟨task, List.mem_map.mpr ⟨task, hmem, if_neg fun heq => ?_⟩, hticket, hphase⟩
    exact hphase (hready task hmem heq)
  lockedByReader := h.lockedByReader
  alone request result' hreader := by
    rw [h.alone request result' hreader]
    rfl
  told := h.told

/-- A task or the loop locks the writer. -/
theorem lock {task : Task} (hmem : task ∈ connection.tasks) (hphase : task.phase ≠ .processing) :
    Connection.Sound now { connection with writer := some (.task task.ticket) } where
  timely := h.timely
  plain := h.plain
  lines := h.lines
  lockedByTask n hlocked := by
    cases hlocked
    exact ⟨task, hmem, rfl, hphase⟩
  lockedByReader := nofun
  alone := h.alone
  told := h.told

theorem readerLocks
    (hreader : connection.reader = .reporting ∨ ∃ result, connection.reader = .answering result) :
    Connection.Sound now { connection with writer := some .reader } where
  timely := h.timely
  plain := h.plain
  lines := h.lines
  lockedByTask := nofun
  lockedByReader _ := hreader
  alone := h.alone
  told := h.told

theorem unlock : Connection.Sound now { connection with writer := none } where
  timely := h.timely
  plain := h.plain
  lines := h.lines
  lockedByTask := nofun
  lockedByReader := nofun
  alone := h.alone
  told := h.told

/-- Tasks end that have not locked the writer. -/
theorem release (hwriter : connection.writer = none) (ends : Nat → Bool) : Connection.Sound now
      { connection with tasks := connection.tasks.filter fun task => !ends task.ticket } where
  timely task hmem := h.timely task (List.mem_of_mem_filter hmem)
  plain task hmem := h.plain task (List.mem_of_mem_filter hmem)
  lines task hmem := h.lines task (List.mem_of_mem_filter hmem)
  lockedByTask n hlocked := by
    rw [hwriter] at hlocked
    cases hlocked
  lockedByReader := h.lockedByReader
  alone request result hreader := by
    rw [h.alone request result hreader]
    rfl
  told := h.told

theorem tick
    (hurgent : ∀ task ∈ connection.tasks, task.phase = .processing →
      now < task.startedAt + localApiRequestTimeout) : connection.Sound (now + 1) where
  timely := hurgent
  plain := h.plain
  lines := h.lines
  lockedByTask := h.lockedByTask
  lockedByReader := h.lockedByReader
  alone := h.alone
  told := h.told

end

end Connection.Sound

/-! ## All connections -/

def Server.tickets (s : Server) (c : Nat) : List Nat := (s.connections c).tasks.map Task.ticket

structure Server.Sound (s : Server) : Prop where
  connections : ∀ c, (s.connections c).Sound s.now
  booked : Booked s.tickets s.held s.written s.nextTicket

section Server

variable {s t : Server} {c ticket : Nat} {task : Task} {connection : Connection}

theorem Server.task?_eq_some (h : s.task? c ticket = some task) :
    task ∈ (s.connections c).tasks ∧ task.ticket = ticket :=
  ⟨List.mem_of_find?_eq_some h, by simpa using List.find?_some h⟩

/-- A task is found by its ticket. -/
theorem Server.Sound.task? (sound : s.Sound) (hmem : task ∈ (s.connections c).tasks) :
    s.task? c task.ticket = some task := by
  cases hfound : s.task? c task.ticket with
  | none =>
    have hnone := List.find?_eq_none.mp hfound task hmem
    simp at hnone
  | some found =>
    obtain ⟨hmem', hticket⟩ := Server.task?_eq_some hfound
    rw [List.inj_on_of_nodup_map (sound.booked.nodup c) hmem' hmem hticket]

theorem Server.tickets_setConnection (s : Server) (c : Nat) (connection : Connection) :
    (s.setConnection c connection).tickets =
      Function.update s.tickets c (connection.tasks.map Task.ticket) := by
  funext c'
  rw [Server.tickets]
  by_cases hc : c' = c
  · subst hc
    rw [Server.setConnection_self, Function.update_self]
  · rw [Server.setConnection_of_ne s connection hc, Function.update_of_ne hc, Server.tickets]

theorem Server.Sound.sound_update (sound : s.Sound) (hconnection : connection.Sound s.now)
    (c' : Nat) : ((s.setConnection c connection).connections c').Sound s.now := by
  by_cases hc : c' = c
  · subst hc
    rw [Server.setConnection_self]
    exact hconnection
  · rw [Server.setConnection_of_ne s connection hc]
    exact sound.connections c'

/-- A connection changes, and its tasks have the tickets they had. -/
theorem Server.Sound.setConnection (sound : s.Sound) (hconnection : connection.Sound s.now)
    (htickets : connection.tasks.map Task.ticket = s.tickets c) :
    (s.setConnection c connection).Sound where
  connections := sound.sound_update hconnection
  booked := by
    rw [Server.tickets_setConnection, htickets, Function.update_eq_self]
    exact sound.booked

theorem Server.Sound.spawn (sound : s.Sound) {request : ApiRequest}
    (hreader : (s.connections c).reader = .admitted request)
    (hpermit : (s.held request.workLane).length < request.workLane.permits) :
    (s.spawn c request).Sound where
  connections := sound.sound_update ((sound.connections c).spawn hreader s.nextTicket)
  booked := by
    have hbooked := sound.booked.spawn (c := c) hpermit
    rw [← show (s.spawn c request).tickets =
        Function.update s.tickets c (s.nextTicket :: s.tickets c) from
      Server.tickets_setConnection s c _] at hbooked
    exact hbooked

theorem Server.Sound.answer (sound : s.Sound) (hfound : s.task? c ticket = some task)
    (hphase : task.phase = .processing) {result : Option ProcessResult}
    (hline : streams result = false) : (s.answer c ticket result).Sound := by
  obtain ⟨hmem, hticket⟩ := Server.task?_eq_some hfound
  have hready : ∀ task' ∈ (s.connections c).tasks, task'.ticket = ticket →
      task'.phase = .processing := by
    intro task' hmem' hticket'
    have hsame := sound.task? hmem'
    rw [hticket', hfound] at hsame
    rw [← Option.some.inj hsame, hphase]
  refine sound.setConnection ((sound.connections c).answer hline hready) ?_
  rw [List.map_map]
  refine List.map_congr_left fun task' _ => ?_
  rw [Function.comp_apply]
  split
  · rfl
  · rfl

/-- Tasks end after the writer has been unlocked. -/
theorem Server.Sound.release (sound : s.Sound) (ends : Nat → Bool)
    (hends : ∀ n, ends n = true → n ∈ s.tickets c) :
    ((s.setWriter c none).release c ends).Sound := by
  rw [Server.release_setWriter]
  refine ⟨sound.sound_update ((sound.connections c).unlock.release rfl ends), ?_⟩
  have hbooked := sound.booked.release ends hends
  have htickets : (s.tickets c).filter (fun n => !ends n) =
      ((s.connections c).tasks.filter fun task => !ends task.ticket).map Task.ticket := by
    rw [Server.tickets, List.filter_map]
    rfl
  rw [htickets, ← Server.tickets_setConnection s c
    { s.connections c with
      tasks := (s.connections c).tasks.filter fun task => !ends task.ticket
      writer := none }] at hbooked
  exact hbooked

variable {reader : Reader}

theorem Server.Sound.setReader (sound : s.Sound) (hfits : reader.Fits (s.connections c).tasks)
    (hwriter : (s.connections c).writer ≠ some .reader) : (s.setReader c reader).Sound :=
  sound.setConnection ((sound.connections c).setReader hfits hwriter) rfl

/-- The loop goes on from a state in which it does not write. -/
theorem Server.Sound.advance (sound : s.Sound) (hfits : reader.Fits (s.connections c).tasks)
    (hreporting : (s.connections c).reader ≠ .reporting)
    (hanswering : ∀ result, (s.connections c).reader ≠ .answering result) :
    (s.setReader c reader).Sound :=
  sound.setReader hfits ((sound.connections c).writer_ne_reader hreporting hanswering)

/-- The loop goes on when it has written. -/
theorem Server.Sound.unlock (sound : s.Sound) (hfits : reader.Fits (s.connections c).tasks) :
    ((s.setWriter c none).setReader c reader).Sound := by
  have hunlocked : (s.setWriter c none).Sound :=
    sound.setConnection (sound.connections c).unlock rfl
  refine hunlocked.setReader ?_ ?_
  · rw [Server.setWriter, Server.setConnection_self]
    exact hfits
  · rw [Server.setWriter, Server.setConnection_self]
    simp

theorem Server.Sound.write (sound : s.Sound) (hfound : s.task? c ticket = some task) :
    Server.Sound { (s.setWriter c none).release c (fun n => n = ticket) with
      written := ticket :: s.written } := by
  obtain ⟨hmem, hticket⟩ := Server.task?_eq_some hfound
  have hissued : ticket ∈ s.tickets c := hticket ▸ List.mem_map_of_mem hmem
  have hreleased : ((s.setWriter c none).release c fun n => n = ticket).Sound := by
    refine sound.release _ fun n hn => ?_
    rw [of_decide_eq_true hn]
    exact hissued
  refine ⟨hreleased.connections, ?_⟩
  have hnew : ticket ∉ s.written := fun hwritten =>
    (sound.booked.ended ticket hwritten).2 c hissued
  refine hreleased.booked.write (sound.booked.issued c ticket hissued) (fun c' hn => ?_) hnew
  rw [Server.release_setWriter] at hn
  obtain ⟨task', hmem', hticket'⟩ := List.mem_map.mp hn
  by_cases hc : c' = c
  · subst hc
    rw [show (_ : Server).connections c' = _ from Server.setConnection_self s c' _] at hmem'
    have hkept := (List.mem_filter.mp hmem').2
    simp [hticket'] at hkept
  · rw [show (_ : Server).connections c' = _ from Server.setConnection_of_ne s _ hc] at hmem'
    exact hc (sound.booked.apart c' c ticket (hticket' ▸ List.mem_map_of_mem hmem') hissued)

private theorem fits_of_idle {tasks : List Task}
    (hidle : reader = .reading ∨ reader = .reporting ∨ reader = .draining ∨ reader = .closed ∨
      ∃ request, reader = .joining request) : reader.Fits tasks := by
  obtain rfl | rfl | rfl | rfl | ⟨request, rfl⟩ := hidle
  all_goals
    constructor
    · rintro _ _ (h | h) <;> cases h
    · rintro _ (h | h) <;> cases h

theorem Server.Sound.step (sound : s.Sound) (label : ServerLabel) (hguard : s.Discerning label)
    (htimely : s.Timely label) (hnext : s.next label = some t) : t.Sound := by
  cases label with
  | receive c request =>
    simp only [Server.next] at hnext
    obtain ⟨hreader, hnext⟩ := Option.ite_none_right_eq_some.mp hnext
    split at hnext
    case isTrue hsubscription =>
      cases hnext
      refine sound.advance (fits_of_idle ?_) (by simp [hreader]) (by simp [hreader])
      exact .inr (.inr (.inr (.inr ⟨request, rfl⟩)))
    case isFalse hother =>
    cases hnext
    refine sound.advance ⟨?_, ?_⟩ (by simp [hreader]) (by simp [hreader])
    · rintro _ _ (h | h) <;> cases h
    · rintro _ (h | h)
      · cases h
        exact Bool.eq_false_iff.mpr hother
      · cases h
  | malformed c =>
    simp only [Server.next] at hnext
    split at hnext
    case isFalse => cases hnext
    case isTrue hreader =>
      cases hnext
      exact sound.advance (fits_of_idle (.inr (.inl rfl))) (by simp [hreader]) (by simp [hreader])
  | acquirePermit c =>
    simp only [Server.next] at hnext
    split at hnext
    case h_2 => cases hnext
    case h_1 request hreader =>
    split at hnext
    case isFalse => cases hnext
    case isTrue =>
    cases hnext
    refine sound.advance ⟨?_, ?_⟩ (by simp [hreader]) (by simp [hreader])
    · rintro _ _ (h | h) <;> cases h
    · rintro _ (h | h)
      · cases h
      · cases h
        exact (sound.connections c).told request (.inl hreader)
  | acquireLane c =>
    simp only [Server.next] at hnext
    split at hnext
    case h_2 => cases hnext
    case h_1 request hreader =>
      split at hnext
      case isFalse => cases hnext
      case isTrue hpermit =>
        cases hnext
        exact sound.spawn hreader hpermit
  | joined c =>
    simp only [Server.next] at hnext
    split at hnext
    case h_2 => cases hnext
    case h_1 request hreader =>
    split at hnext
    case isFalse => cases hnext
    case isTrue hnone =>
      cases hnext
      refine sound.advance ⟨fun _ _ _ => hnone, ?_⟩ (by simp [hreader]) (by simp [hreader])
      rintro _ (h | h) <;> cases h
  | processed c passes =>
    simp only [Server.next] at hnext
    split at hnext
    case h_2 => cases hnext
    case h_1 request hreader =>
      cases hnext
      have hnone := (sound.connections c).alone request none (.inl hreader)
      refine sound.advance ⟨fun _ _ _ => hnone, ?_⟩ (by simp [hreader]) (by simp [hreader])
      rintro _ (h | h) <;> cases h
  | taskProcessed c ticket passes =>
    simp only [Server.next] at hnext
    split at hnext
    case h_2 => cases hnext
    case h_1 task hfound =>
    obtain ⟨hphase, hnext⟩ := Option.ite_none_right_eq_some.mp hnext
    cases hnext
    refine sound.answer hfound hphase (Bool.eq_false_iff.mpr fun hstreams => ?_)
    obtain ⟨rfl, hsubscription | hoverlooked⟩ := ApiRequest.streams_process hstreams
    · have hplain := (sound.connections c).plain task (Server.task?_eq_some hfound).1
      rw [hsubscription] at hplain
      cases hplain
    · exact Bool.noConfusion (hguard task hfound hoverlooked)
  | taskTimeout c ticket =>
    simp only [Server.next] at hnext
    split at hnext
    case h_2 => cases hnext
    case h_1 task hfound =>
      split at hnext
      case isFalse => cases hnext
      case isTrue hphase =>
        cases hnext
        exact sound.answer hfound hphase.1 rfl
  | lockWriter c ticket =>
    simp only [Server.next] at hnext
    split at hnext
    case h_2 => cases hnext
    case h_1 task hfound =>
    split at hnext
    case isFalse => cases hnext
    case isTrue hphase =>
      cases hnext
      obtain ⟨hmem, rfl⟩ := Server.task?_eq_some hfound
      exact sound.setConnection ((sound.connections c).lock hmem hphase.1) rfl
  | write c ticket =>
    simp only [Server.next] at hnext
    split at hnext
    case h_2 => cases hnext
    case h_1 task hfound =>
    split at hnext
    case h_2 => cases hnext
    case h_1 =>
      split at hnext
      case isFalse => cases hnext
      case isTrue =>
        cases hnext
        exact sound.write hfound
  | streamEnds c ticket =>
    simp only [Server.next] at hnext
    split at hnext
    case h_2 => cases hnext
    case h_1 task hfound =>
    obtain ⟨hmem, hticket⟩ := Server.task?_eq_some hfound
    split at hnext
    case h_2 => cases hnext
    case h_1 =>
    split at hnext
    case isFalse => cases hnext
    case isTrue =>
      cases hnext
      refine sound.release _ fun n hn => ?_
      rw [of_decide_eq_true hn, ← hticket]
      exact List.mem_map_of_mem hmem
  | readerLocks c =>
    simp only [Server.next] at hnext
    split at hnext
    case h_3 => cases hnext
    case h_1 hreader =>
      split at hnext
      case isFalse => cases hnext
      case isTrue =>
        cases hnext
        exact sound.setConnection ((sound.connections c).readerLocks (.inl hreader)) rfl
    case h_2 result hreader =>
    split at hnext
    case isFalse => cases hnext
    case isTrue =>
      cases hnext
      exact sound.setConnection ((sound.connections c).readerLocks (.inr ⟨result, hreader⟩)) rfl
  | readerWrites c =>
    simp only [Server.next] at hnext
    split at hnext
    case isFalse => cases hnext
    case isTrue =>
    split at hnext
    case h_3 => cases hnext
    case h_1 =>
      cases hnext
      exact sound.unlock (fits_of_idle (.inl rfl))
    case h_2 =>
      split at hnext
      case isTrue => cases hnext
      case isFalse =>
        cases hnext
        exact sound.unlock (fits_of_idle (.inr (.inr (.inr (.inl rfl)))))
  | readerStreamEnds c =>
    simp only [Server.next] at hnext
    split at hnext
    case isFalse => cases hnext
    case isTrue =>
    split at hnext
    case h_2 => cases hnext
    case h_1 =>
      split at hnext
      case isFalse => cases hnext
      case isTrue =>
        cases hnext
        exact sound.unlock (fits_of_idle (.inr (.inr (.inr (.inl rfl)))))
  | endOfInput c =>
    simp only [Server.next] at hnext
    split at hnext
    case isFalse => cases hnext
    case isTrue hreader =>
      cases hnext
      exact sound.advance (fits_of_idle (.inr (.inr (.inl rfl)))) (by simp [hreader])
        (by simp [hreader])
  | drained c =>
    simp only [Server.next] at hnext
    split at hnext
    case isFalse => cases hnext
    case isTrue hreader =>
      cases hnext
      exact sound.advance (fits_of_idle (.inr (.inr (.inr (.inl rfl))))) (by simp [hreader])
        (by simp [hreader])
  | broken c =>
    cases hnext
    refine (sound.release _ fun n hn => ?_).setReader
      (fits_of_idle (.inr (.inr (.inr (.inl rfl))))) ?_
    · obtain ⟨task, hfound⟩ := Option.isSome_iff_exists.mp hn
      obtain ⟨hmem, rfl⟩ := Server.task?_eq_some hfound
      exact List.mem_map_of_mem hmem
    · rw [Server.release_setWriter]
      rw [Server.setConnection_self]
      exact nofun
  | tick =>
    cases hnext
    exact ⟨fun c => (sound.connections c).tick (htimely c), sound.booked⟩

theorem Server.Sound.start : Server.start.Sound where
  connections _ := ⟨nofun, nofun, nofun, nofun, nofun, fun _ _ _ => rfl,
    by rintro _ (h | h) <;> cases h⟩
  booked := ⟨nofun, fun _ => .nil, nofun, nofun, fun _ => Nat.zero_le _, nofun, .nil⟩

theorem Server.Sound.holds (reached : (serverSystem.restrict Server.Discerning).Reachable s) :
    s.Sound := by
  induction reached with
  | start hstart =>
    obtain rfl := hstart
    exact .start
  | next label _ hstep ih => exact ih.step label hstep.1 hstep.2.1 hstep.2.2

/-! ## Responses -/

/-- A step that writes the response. -/
theorem Server.CanRespond.of_next {label : ServerLabel} (hnext : s.next label = some t)
    (hlabel : label.IsWrite c) (hwritten : ticket ∈ t.written) : s.CanRespond c ticket := by
  refine ⟨[label], ?_, t, ?_, hwritten⟩
  · intro label' hmem
    obtain rfl := List.mem_singleton.mp hmem
    exact hlabel
  · rw [LabelledSystem.run, hnext, Option.bind_some, LabelledSystem.run]

/-- A step that writes comes before what can be written after it. -/
theorem Server.CanRespond.after {label : ServerLabel} (h : t.CanRespond c ticket)
    (hnext : s.next label = some t) (hlabel : label.IsWrite c) : s.CanRespond c ticket := by
  obtain ⟨labels, hlabels, after, hrun, hwritten⟩ := h
  refine ⟨label :: labels, ?_, after, ?_, hwritten⟩
  · rintro label' (_ | ⟨_, hmem⟩)
    · exact hlabel
    · exact hlabels label' hmem
  · rw [LabelledSystem.run, hnext, Option.bind_some]
    exact hrun

/-- A task that has the writer writes its line. -/
theorem Server.Sound.next_write (sound : s.Sound) (hmem : task ∈ (s.connections c).tasks)
    (hphase : task.phase ≠ .processing)
    (hwriter : (s.connections c).writer = some (.task task.ticket)) :
    s.next (.write c task.ticket) =
      some { (s.setWriter c none).release c (fun n => n = task.ticket) with
        written := task.ticket :: s.written } := by
  cases hresult : task.phase with
  | processing => exact absurd hresult hphase
  | answering result =>
    have hline := (sound.connections c).lines task hmem result hresult
    simp only [Server.next, sound.task? hmem, hresult, hwriter, hline, and_self, if_true]

theorem Server.Sound.next_lockWriter (sound : s.Sound) (hmem : task ∈ (s.connections c).tasks)
    (hphase : task.phase ≠ .processing) (hwriter : (s.connections c).writer = none) :
    s.next (.lockWriter c task.ticket) = some (s.setWriter c (some (.task task.ticket))) := by
  simp only [Server.next, sound.task? hmem]
  rw [if_pos ⟨hphase, hwriter⟩]

/-- With the writer free, a task locks it and writes its line. -/
theorem Server.Sound.canRespond_of_free (sound : s.Sound)
    (hmem : task ∈ (s.connections c).tasks) (hphase : task.phase ≠ .processing)
    (hwriter : (s.connections c).writer = none) : s.CanRespond c task.ticket := by
  have hlock := sound.next_lockWriter hmem hphase hwriter
  have hlocked : (s.setWriter c (some (.task task.ticket))).Sound :=
    sound.setConnection ((sound.connections c).lock hmem hphase) rfl
  have hmem' : task ∈ ((s.setWriter c (some (.task task.ticket))).connections c).tasks := by
    rwa [Server.setWriter, Server.setConnection_self]
  have hwriter' : ((s.setWriter c (some (.task task.ticket))).connections c).writer =
      some (.task task.ticket) := by
    rw [Server.setWriter, Server.setConnection_self]
  have hwrite := hlocked.next_write hmem' hphase hwriter'
  exact .after (.of_next hwrite rfl List.mem_cons_self) hlock rfl

theorem Server.Sound.canRespond (sound : s.Sound) (hmem : task ∈ (s.connections c).tasks)
    (hphase : task.phase ≠ .processing) : s.CanRespond c task.ticket := by
  cases hwriter : (s.connections c).writer with
  | none => exact sound.canRespond_of_free hmem hphase hwriter
  | some holder =>
    cases holder with
    | task n =>
      obtain ⟨holding, hholding, rfl, hanswering⟩ :=
        (sound.connections c).lockedByTask n hwriter
      have hwrite := sound.next_write hholding hanswering hwriter
      by_cases hsame : task.ticket = holding.ticket
      · rw [hsame]
        exact .of_next hwrite rfl List.mem_cons_self
      -- The holder writes first, and leaves the task as it is.
      refine Server.CanRespond.after ?_ hwrite rfl
      have hafter := sound.write (sound.task? hholding)
      refine hafter.canRespond_of_free ?_ hphase ?_
      · rw [Server.release_setWriter]
        rw [Server.setConnection_self]
        exact List.mem_filter.mpr ⟨hmem, by simpa using hsame⟩
      · rw [Server.release_setWriter]
        rw [Server.setConnection_self]
    | reader =>
      obtain hreader | ⟨result, hreader⟩ := (sound.connections c).lockedByReader hwriter
      · have hnext : s.next (.readerWrites c) =
            some ((s.setWriter c none).setReader c .reading) := by
          simp only [Server.next, hwriter, hreader, if_true]
        refine Server.CanRespond.after ?_ hnext rfl
        have hafter : ((s.setWriter c none).setReader c .reading).Sound :=
          sound.unlock (fits_of_idle (.inl rfl))
        refine hafter.canRespond_of_free ?_ hphase ?_
        · rwa [Server.setReader, Server.setConnection_self, Server.setWriter,
            Server.setConnection_self]
        · rw [Server.setReader, Server.setConnection_self, Server.setWriter,
            Server.setConnection_self]
      · have hnone := (sound.connections c).alone .other result (.inr hreader)
        rw [hnone] at hmem
        cases hmem

theorem Server.Sound.bounded (sound : s.Sound) (hmem : task ∈ (s.connections c).tasks) :
    task.Bounded s.now := by
  cases hphase : task.phase with
  | processing => exact .inl ⟨hphase, (sound.connections c).timely task hmem hphase⟩
  | answering result => exact .inr ⟨result, hphase, (sound.connections c).lines task hmem _ hphase⟩

/-- In every run in which no subscription that is not told apart passes its checks, permits are
held by requests within their time limit or with a line to write, which can be written. -/
theorem permits_and_responses
    (reached : (serverSystem.restrict Server.Discerning).Reachable s) : s.Prompt := by
  have sound := Server.Sound.holds reached
  refine ⟨fun lane => ⟨sound.booked.permits lane, fun ticket hheld => ?_⟩,
    fun c task hmem hphase => sound.canRespond hmem hphase, sound.booked.once⟩
  obtain ⟨c, hticket⟩ := sound.booked.owned lane ticket hheld
  obtain ⟨task, hmem, hticket⟩ := List.mem_map.mp hticket
  exact ⟨c, task, hmem, hticket, sound.bounded hmem⟩

end Server

namespace ConnectionSample

/-- A request that goes into a task. -/
def enter (c : Nat) (request : ApiRequest) : List ServerLabel :=
  [.receive c request, .acquirePermit c, .acquireLane c]

/-- A request that goes into a task and passes its checks. -/
def request (c ticket : Nat) (request : ApiRequest) : List ServerLabel :=
  enter c request ++ [.taskProcessed c ticket true]

def run (labels : List ServerLabel) : Option Server :=
  LabelledSystem.runWithin Server.next (fun _ label => label ≠ .tick) .start labels

theorem run_reachable {labels : List ServerLabel} {s : Server} (h : run labels = some s) :
    serverSystem.Reachable s := by
  have hstep : ∀ s label t, label ≠ .tick → s.next label = some t →
      serverSystem.step s label t := by
    intro s label t hguard hnext
    refine ⟨?_, hnext⟩
    cases label with
    | tick => exact absurd rfl hguard
    | _ => trivial
  exact LabelledSystem.Reachable.of_runWithin hstep (.start rfl) h

def admitted : Server :=
  (LabelledSystem.runWithin Server.next (fun _ label => label ∈ enter 0 .sendMessage) .start
    (enter 0 .sendMessage)).get (by decide +kernel)

def processed : Server := (admitted.next (.taskProcessed 0 0 true)).get (by decide +kernel)

/-- A message that has been sent, and is to be answered. -/
theorem processed_prompt : processed.Prompt := by
  have hstep : ∀ s label t, label ∈ enter 0 .sendMessage → s.next label = some t →
      (serverSystem.restrict Server.Discerning).step s label t := by
    intro s label t hmem hnext
    simp only [enter, List.mem_cons, List.not_mem_nil, or_false] at hmem
    obtain rfl | rfl | rfl := hmem
    · exact ⟨trivial, trivial, hnext⟩
    · exact ⟨trivial, trivial, hnext⟩
    · exact ⟨trivial, trivial, hnext⟩
  have hadmitted : (serverSystem.restrict Server.Discerning).Reachable admitted :=
    .of_runWithin hstep (.start rfl) (Option.some_get _).symm
  have htask : admitted.task? 0 0 = some ⟨0, .sendMessage, 0, .processing⟩ := by decide +kernel
  have hdiscerning : admitted.Discerning (.taskProcessed 0 0 true) := by
    intro task hfound hoverlooked
    cases htask.symm.trans hfound
    cases hoverlooked
  exact permits_and_responses (.next _ hadmitted ⟨hdiscerning, trivial, (Option.some_get _).symm⟩)

/-! ### Subscriptions that are not told apart -/

/-- A subscription has the writer when another request has been processed. -/
def blocked : Server :=
  (run (request 0 0 .subscribeGossip ++ [.lockWriter 0 0] ++ request 0 1 .other)).get
    (by decide +kernel)

/-- A subscription on each of a dozen connections. -/
def exhausted : Server :=
  (run ((List.range 12).flatMap fun c => request c c .subscribeStreams)).get (by decide +kernel)

theorem blocked_waits (label : ServerLabel) (h : label.IsWrite 0) : blocked.next label = none := by
  have hwriter : (blocked.connections 0).writer = some (.task 0) := by decide +kernel
  have htask : blocked.task? 0 0 =
      some ⟨0, .subscribeGossip, 0, .answering (some .subscribeGossip)⟩ := by decide +kernel
  cases label with
  | lockWriter c' ticket =>
    obtain rfl : c' = 0 := h
    simp only [Server.next, hwriter]
    cases blocked.task? 0 ticket with
    | none => rfl
    | some task => simp
  | write c' ticket =>
    obtain rfl : c' = 0 := h
    simp only [Server.next, hwriter]
    by_cases hticket : ticket = 0
    · subst hticket
      rw [htask]
      rfl
    cases blocked.task? 0 ticket with
    | none => rfl
    | some task =>
      obtain ⟨n, request, startedAt, phase⟩ := task
      cases phase with
      | processing => rfl
      | answering result =>
        refine if_neg fun hholds => hticket ?_
        exact (Holder.task.inj (Option.some.inj hholds.1)).symm
  | readerWrites c' =>
    obtain rfl : c' = 0 := h
    simp [Server.next, hwriter]
  | _ => cases h

/-- An open subscription keeps the writer from a request of its connection, and a dozen keep all
permits of the control lane. -/
theorem subscriptions_keep_permits :
    (serverSystem.Reachable blocked ∧
        blocked.task? 0 1 = some ⟨1, .other, 0, .answering (some .response)⟩ ∧
        ¬ blocked.CanRespond 0 1) ∧
      serverSystem.Reachable exhausted ∧
        (exhausted.held .control).length = maxInFlightControlRequests ∧
        ∀ ticket ∈ exhausted.held .control, exhausted.task? ticket ticket =
          some ⟨ticket, .subscribeStreams, 0, .answering (some .subscribeStreams)⟩ := by
  refine ⟨⟨run_reachable (Option.some_get _).symm, by decide +kernel, ?_⟩,
    run_reachable (Option.some_get _).symm, by decide +kernel, by decide +kernel⟩
  rintro ⟨labels, hlabels, t, hrun, hwritten⟩
  cases labels with
  | nil =>
    cases hrun
    exact absurd hwritten (by decide +kernel)
  | cons label labels =>
    rw [LabelledSystem.run, blocked_waits label (hlabels label List.mem_cons_self)] at hrun
    cases hrun

end ConnectionSample

end VeilKnit.Api
