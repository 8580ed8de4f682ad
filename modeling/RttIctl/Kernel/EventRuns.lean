import RttIctl.Kernel.Event

/-!
Owns what holds of an event object after any order of calls: nobody waits for flags
that are there, no flag is taken more often than it was sent, and every receipt is
what was asked for.

It does not own whether a resumed thread runs, nor what a thread does with its flags.
-/

namespace RttIctl.Kernel

open Lib

variable {flag : IpcFlag} {event event' : EventObject}

/-! ### What one call does -/

/-- What a call can do to the object. -/
inductive EventMove (event : EventObject) : EventObject → Prop where
  | outside (resumed : List Nat) : EventMove event { event with resumed := resumed }
  | sent (set : BitVec 32) (nonzero : set ≠ 0) : EventMove event (event.rtEventSend set)
  | received (waiter : EventWaiter) (left : BitVec 32) (receipt : EventReceipt)
      (asks : waiter.eventSet ≠ 0) (given : eventGrant event.set waiter = some (left, receipt)) :
      EventMove event { event with set := left, received := event.received ++ [receipt] }
  | suspended (waiter : EventWaiter) (list : List EventWaiter) (asks : waiter.eventSet ≠ 0)
      (refused : eventGrant event.set waiter = none)
      (queued : list.Perm (waiter :: event.suspendThread)) :
      EventMove event { event with suspendThread := list }
  | expired (list : List EventWaiter) (resumed : List Nat)
      (fewer : list.Sublist event.suspendThread) :
      EventMove event { event with suspendThread := list, resumed := resumed }
  | reset (resumed : List Nat) :
      EventMove event { event with set := 0, suspendThread := [], resumed := resumed }

theorem rtEventRecv_move {priority : Nat → Nat} {thread : Nat} {set : BitVec 32}
    {option : BitVec 8} {timeout : Int}
    (called : event.rtEventRecv flag priority thread set option timeout = some event') :
    EventMove event event' := by
  unfold EventObject.rtEventRecv at called
  split at called
  · cases called
    exact .outside event.resumed
  · next nonzero =>
      split at called
      · cases called
      · let waiter : EventWaiter := ⟨thread, set, option, 0 < timeout⟩
        split at called
        · next status =>
            cases called
            have given := @eventGrant_of_status event.set waiter status
            exact .received waiter _ _ nonzero given
        · next unsatisfied =>
            split at called
            · cases called
              exact .outside event.resumed
            · cases called
              have refused : eventGrant event.set waiter = none :=
                eventGrant_eq_none_iff.mpr (Bool.eq_false_iff.mpr unsatisfied)
              exact .suspended waiter _ nonzero refused (rtIpcListSuspend_perm _ _ _ _ _)

theorem eventStep_move {call : EventCall} (taken : eventStep flag event call = some event') :
    EventMove event event' := by
  cases call with
  | send set =>
      cases taken
      by_cases zero : set = 0
      · rw [EventObject.rtEventSend, if_pos zero]
        exact .outside event.resumed
      · exact .sent set zero
  | recv priority thread set option timeout =>
      rw [eventStep] at taken
      split at taken
      · exact rtEventRecv_move taken
      · cases taken
  | returns thread =>
      rw [eventStep] at taken
      split at taken
      · cases taken
        exact .outside _
      · cases taken
  | expires thread =>
      rw [eventStep, EventObject.expire] at taken
      split at taken
      · cases taken
        exact .expired _ _ List.filter_sublist
      · cases taken
  | reset =>
      cases taken
      exact .reset _

theorem event_invariant (reachable : (eventSystem flag).Reachable event)
    (Inv : EventObject → Prop) (start : Inv (eventSystem flag).init)
    (preserved : ∀ event event', Inv event → EventMove event event' → Inv event') : Inv event :=
  reachable.invariant Inv start fun _ _ _ before _ taken =>
    preserved _ _ before (eventStep_move taken)

/-- Two threads wait, one for either of two flags and one for both of two; both clear.
Three flags are sent one by one. -/
def twoWaiters : List EventCall :=
  let priority := fun thread => thread
  [.recv priority 2 0x6 (eventFlagAnd ||| eventFlagClear) (-1),
    .recv priority 1 0x3 (eventFlagOr ||| eventFlagClear) (-1), .send 0x1, .send 0x2, .send 0x4]

/-! ### No lost wake-up -/

/-- Nobody waits for flags that are there. -/
def EventObject.Settled (event : EventObject) : Prop :=
  ∀ waiter ∈ event.suspendThread, eventGrant event.set waiter = none

theorem settled_move (settled : event.Settled) (move : EventMove event event') :
    event'.Settled := by
  cases move with
  | outside resumed => exact settled
  | sent set nonzero =>
      unfold EventObject.Settled
      rw [EventObject.rtEventSend, if_neg nonzero]
      exact serve_refuses eventGrant_antitone _ _
  | received waiter left receipt asks given =>
      intro other member
      exact eventGrant_antitone _ _ _ _ _ given (settled other member)
  | suspended waiter list asks refused queued =>
      intro other member
      rcases List.mem_cons.mp (queued.mem_iff.mp member) with rfl | earlier
      · exact refused
      · exact settled other earlier
  | expired list resumed fewer =>
      exact fun other member => settled other (fewer.mem member)
  | reset resumed => exact fun other member => absurd member List.not_mem_nil

/-- No wake-up is lost: whatever the order of calls, a suspended thread waits for
flags that are not there. -/
theorem event_no_lost_wakeup (reachable : (eventSystem flag).Reachable event) :
    ∀ waiter ∈ event.suspendThread,
      eventStatus event.set waiter.eventSet waiter.eventInfo = false := by
  have settled := event_invariant reachable EventObject.Settled
    (fun _ member => absurd member List.not_mem_nil) fun _ _ => settled_move
  exact fun waiter member => eventGrant_eq_none_iff.mp (settled waiter member)

theorem event_no_lost_wakeup_run : ∃ waiter ∈
      ((eventSystem .prio).run (twoWaiters.take 4)).suspendThread, waiter.thread = 2 ∧
    eventStatus ((eventSystem .prio).run (twoWaiters.take 4)).set waiter.eventSet
      waiter.eventInfo = false := by
  have waits : ∃ waiter ∈ ((eventSystem .prio).run (twoWaiters.take 4)).suspendThread,
      waiter.thread = 2 := by decide
  obtain ⟨waiter, member, isSecond⟩ := waits
  have unsatisfied := event_no_lost_wakeup ((eventSystem .prio).run_reachable (twoWaiters.take 4))
  exact ⟨waiter, member, isSecond, unsatisfied waiter member⟩

/-! ### No flag taken twice -/

/-- How often a flag was taken by a receipt that clears. -/
def takenFlag (b : Nat) (received : List EventReceipt) : Nat :=
  received.countP fun receipt =>
    receipt.option &&& eventFlagClear ≠ 0 ∧ receipt.received.getLsbD b = true

/-- How often a flag was sent. -/
def postedFlag (b : Nat) (posted : List (BitVec 32)) : Nat :=
  posted.countP fun set => set.getLsbD b

/-- A receipt takes a flag only when it is there, and then it is gone. -/
theorem takenFlag_granted {set left : BitVec 32} {waiter : EventWaiter} {receipt : EventReceipt}
    (granted : Granted set left waiter receipt) (b : Nat) (before : List EventReceipt) :
    takenFlag b (before ++ [receipt]) + (left.getLsbD b).toNat ≤
      takenFlag b before + (set.getLsbD b).toNat := by
  rw [takenFlag, takenFlag, List.countP_append, List.countP_singleton, granted.left_eq]
  split
  · next takes =>
      obtain ⟨clears, isReceived⟩ := of_decide_eq_true takes
      rw [eventClear_taken clears isReceived, granted.there b isReceived]
      exact Nat.le_refl _
  · have fewer : ((eventClear set receipt.received receipt.option).getLsbD b).toNat ≤
        (set.getLsbD b).toNat := by
      cases isLeft : (eventClear set receipt.received receipt.option).getLsbD b with
      | false => exact Nat.zero_le _
      | true =>
          have isSet := eventClear_le receipt.received isLeft
          exact Nat.le_of_eq (congrArg Bool.toNat isSet.symm)
    omega

theorem taken_le_posted_move (b : Nat)
    (le : takenFlag b event.received + (event.set.getLsbD b).toNat ≤ postedFlag b event.posted)
    (move : EventMove event event') :
    takenFlag b event'.received + (event'.set.getLsbD b).toNat ≤ postedFlag b event'.posted := by
  cases move with
  | outside resumed => exact le
  | sent set nonzero =>
      rw [EventObject.rtEventSend, if_neg nonzero]
      have start : takenFlag b event.received + ((event.set ||| set).getLsbD b).toNat ≤
          postedFlag b (event.posted ++ [set]) := by
        rw [postedFlag, List.countP_append, List.countP_singleton, ← postedFlag,
          BitVec.getLsbD_or]
        cases isSent : set.getLsbD b with
        | false => simpa using le
        | true =>
            rw [Bool.or_true, if_pos rfl, Bool.toNat_true]
            omega
      exact serve_rule
        (fun left received => takenFlag b received + (left.getLsbD b).toNat ≤
          postedFlag b (event.posted ++ [set]))
        event.received event.suspendThread start
        fun left before _ _ _ _ inv given =>
          Nat.le_trans (takenFlag_granted (eventGrant_granted given) b before) inv
  | received waiter left receipt asks given =>
      exact Nat.le_trans (takenFlag_granted (eventGrant_granted given) b event.received) le
  | suspended waiter list asks refused queued => exact le
  | expired list resumed fewer => exact le
  | reset resumed =>
      have := Nat.le_of_add_right_le le
      simpa using this

/-- A flag that is received with `RT_EVENT_FLAG_CLEAR` was sent for it: as often as it
was taken, and once more while it is set. -/
theorem event_taken_le_posted (reachable : (eventSystem flag).Reachable event) (b : Nat) :
    takenFlag b event.received + (event.set.getLsbD b).toNat ≤ postedFlag b event.posted :=
  event_invariant reachable
    (fun event => takenFlag b event.received + (event.set.getLsbD b).toNat ≤
      postedFlag b event.posted)
    (by simp [eventSystem, takenFlag, postedFlag]) fun _ _ => taken_le_posted_move b

theorem event_taken_le_posted_run :
    takenFlag 1 ((eventSystem .prio).run twoWaiters).received = 1 ∧
      1 ≤ postedFlag 1 ((eventSystem .prio).run twoWaiters).posted := by
  have taken : takenFlag 1 ((eventSystem .prio).run twoWaiters).received = 1 := by decide
  have le := event_taken_le_posted ((eventSystem .prio).run_reachable twoWaiters) 1
  rw [taken] at le
  exact ⟨taken, Nat.le_of_add_right_le le⟩

/-! ### Receipts -/

/-- What a receipt owes to its call and to the sets that were sent. -/
structure EventReceipt.Proper (receipt : EventReceipt) (posted : List (BitVec 32)) : Prop where
  nonempty : receipt.received ≠ 0
  asked : ∀ b, receipt.received.getLsbD b = true → receipt.asked.getLsbD b = true
  whole : receipt.option &&& eventFlagAnd ≠ 0 → receipt.received = receipt.asked
  sent : ∀ b, receipt.received.getLsbD b = true → ∃ set ∈ posted, set.getLsbD b = true

theorem EventReceipt.Proper.more {receipt : EventReceipt} {posted more : List (BitVec 32)}
    (proper : receipt.Proper posted) (kept : posted ⊆ more) : receipt.Proper more where
  nonempty := proper.nonempty
  asked := proper.asked
  whole := proper.whole
  sent b isReceived := by
    obtain ⟨set, member, isSent⟩ := proper.sent b isReceived
    exact ⟨set, kept member, isSent⟩

/-- The flags that are there were sent, and all receipts so far are proper. -/
structure Accounted (set : BitVec 32) (received : List EventReceipt) (posted : List (BitVec 32)) :
    Prop where
  sent : ∀ b, set.getLsbD b = true → ∃ sent ∈ posted, sent.getLsbD b = true
  proper : ∀ receipt ∈ received, receipt.Proper posted

theorem Accounted.granted {set left : BitVec 32} {received : List EventReceipt}
    {posted : List (BitVec 32)} {waiter : EventWaiter} {receipt : EventReceipt}
    (accounted : Accounted set received posted) (asks : waiter.eventSet ≠ 0)
    (granted : Granted set left waiter receipt) :
    Accounted left (received ++ [receipt]) posted where
  sent b isLeft := accounted.sent b (eventClear_le receipt.received (granted.left_eq ▸ isLeft))
  proper := by
    have own : receipt.Proper posted :=
      ⟨granted.some_of_asked asks, granted.asked, granted.whole,
        fun b isReceived => accounted.sent b (granted.there b isReceived)⟩
    intro other member
    rcases List.mem_append.mp member with earlier | last
    · exact accounted.proper other earlier
    · rw [List.mem_singleton.mp last]
      exact own

theorem Accounted.post {set : BitVec 32} {received : List EventReceipt}
    {posted : List (BitVec 32)} (accounted : Accounted set received posted)
    (sent : BitVec 32) : Accounted (set ||| sent) received (posted ++ [sent]) where
  sent b isSet := by
    rw [BitVec.getLsbD_or, Bool.or_eq_true] at isSet
    rcases isSet with earlier | now
    · obtain ⟨before, member, isSent⟩ := accounted.sent b earlier
      exact ⟨before, List.mem_append_left _ member, isSent⟩
    · exact ⟨sent, List.mem_append_right _ List.mem_cons_self, now⟩
  proper receipt member :=
    (accounted.proper receipt member).more (List.subset_append_left posted [sent])

/-- Every waiter asks for something, and the object is accounted for. -/
structure EventObject.Sound (event : EventObject) : Prop where
  asks : ∀ waiter ∈ event.suspendThread, waiter.eventSet ≠ 0
  accounted : Accounted event.set event.received event.posted

theorem sound_move (sound : event.Sound) (move : EventMove event event') : event'.Sound := by
  cases move with
  | outside resumed => exact ⟨sound.asks, sound.accounted⟩
  | sent set nonzero =>
      rw [EventObject.rtEventSend, if_neg nonzero]
      refine ⟨fun waiter member => ?_, ?_⟩
      · exact sound.asks waiter ((serve_sublist _ _).mem member)
      · exact serve_rule
          (fun left received => Accounted left received (event.posted ++ [set]))
          event.received event.suspendThread (sound.accounted.post set)
          fun _ _ waiter _ _ member accounted given =>
            accounted.granted (sound.asks waiter member) (eventGrant_granted given)
  | received waiter left receipt asks given =>
      exact ⟨sound.asks, sound.accounted.granted asks (eventGrant_granted given)⟩
  | suspended waiter list asks refused queued =>
      refine ⟨fun other member => ?_, sound.accounted⟩
      rcases List.mem_cons.mp (queued.mem_iff.mp member) with rfl | earlier
      · exact asks
      · exact sound.asks other earlier
  | expired list resumed fewer =>
      exact ⟨fun other member => sound.asks other (fewer.mem member), sound.accounted⟩
  | reset resumed =>
      refine ⟨fun other member => absurd member List.not_mem_nil, ?_, sound.accounted.proper⟩
      intro b isSet
      simp at isSet

/-- Every receipt has a flag that was asked for, all of them when it is an AND, and
none that was not sent. -/
theorem event_receipts_proper (reachable : (eventSystem flag).Reachable event) :
    ∀ receipt ∈ event.received, receipt.Proper event.posted := by
  have start : (eventSystem flag).init.Sound := by
    refine ⟨fun _ member => absurd member List.not_mem_nil, fun b isSet => ?_,
      fun _ member => absurd member List.not_mem_nil⟩
    simp [eventSystem] at isSet
  exact (event_invariant reachable EventObject.Sound start fun _ _ => sound_move).accounted.proper

theorem event_receipts_proper_run :
    ((eventSystem .prio).run twoWaiters).received.map EventReceipt.received = [0x1, 0x6] ∧
      ∀ receipt ∈ ((eventSystem .prio).run twoWaiters).received,
        receipt.Proper ((eventSystem .prio).run twoWaiters).posted :=
  ⟨by decide, event_receipts_proper ((eventSystem .prio).run_reachable twoWaiters)⟩

end RttIctl.Kernel
