import RttIctl.Kernel.Mutex

/-!
Owns what holds of a mutex after any order of calls: whoever waits, waits for an owner
that does not; priorities that were lent go back, and in a priority queue nobody waits
for a thread of lower priority; and, up to 256 takes deep, only the owner has taken it.

It does not own that the owner releases it.
-/

namespace RttIctl.Kernel

open Lib

variable {flag : IpcFlag} {initPriority : Nat → Nat} {mutex mutex' : Mutex}

namespace Mutex

/-! ### What one call does -/

/-- What a call can do to the mutex. -/
inductive Move (flag : IpcFlag) (mutex : Mutex) : MutexCall → Mutex → Prop where
  | outside (call : MutexCall) (resumed : List Nat) :
      Move flag mutex call { mutex with resumed := resumed }
  | nested (thread : Nat) (time : Int) (owns : mutex.owner = some thread) :
      Move flag mutex (.take thread time)
        { mutex with
          hold := (mutex.hold + 1) % 2 ^ 8
          depth := Function.update mutex.depth thread (mutex.depth thread + 1) }
  | taken (thread : Nat) (time : Int) (free : 0 < mutex.value) :
      Move flag mutex (.take thread time)
        { mutex with
          value := mutex.value - 1
          owner := some thread
          originalPriority := mutex.currentPriority thread
          hold := (mutex.hold + 1) % 2 ^ 8
          depth := Function.update mutex.depth thread (mutex.depth thread + 1) }
  | waits (time : Int) (waiter : MutexWaiter) (other : mutex.owner ≠ some waiter.thread)
      (held : mutex.value = 0) (fresh : ∀ known ∈ mutex.suspendThread,
        known.thread ≠ waiter.thread) :
      Move flag mutex (.take waiter.thread time)
        { mutex with
          currentPriority := mutex.lent waiter.thread
          suspendThread := rtIpcListSuspend MutexWaiter.thread flag (mutex.lent waiter.thread)
            waiter mutex.suspendThread }
  | lessNested (thread : Nat) (owns : mutex.owner = some thread)
      (more : (mutex.hold + 2 ^ 8 - 1) % 2 ^ 8 ≠ 0) :
      Move flag mutex (.release thread)
        { mutex with
          hold := (mutex.hold + 2 ^ 8 - 1) % 2 ^ 8
          depth := Function.update mutex.depth thread (mutex.depth thread - 1) }
  | released (thread : Nat) (owns : mutex.owner = some thread)
      (last : (mutex.hold + 2 ^ 8 - 1) % 2 ^ 8 = 0) :
      Move flag mutex (.release thread) (Mutex.handOver
        { mutex with
          hold := (mutex.hold + 2 ^ 8 - 1) % 2 ^ 8
          depth := Function.update mutex.depth thread (mutex.depth thread - 1) } thread)
  | expired (thread : Nat) (list : List MutexWaiter) (resumed : List Nat)
      (fewer : list.Sublist mutex.suspendThread) :
      Move flag mutex (.expires thread)
        { mutex with
          suspendThread := list
          resumed := resumed }

theorem rtMutexTake_move {thread : Nat} (time : Int) (outside : mutex.isOutside thread = true) :
    Move flag mutex (.take thread time) (mutex.rtMutexTake flag thread time) := by
  unfold rtMutexTake
  split
  · next owns => exact .nested thread time owns
  · next other =>
      split
      · next free => exact .taken thread time free
      · next held =>
          split
          · exact .outside _ mutex.resumed
          · refine .waits time ⟨thread, 0 < time⟩ other (by omega) fun known member => ?_
            rw [isOutside, Bool.and_eq_true, List.all_eq_true] at outside
            exact of_decide_eq_true (outside.1 known member)

theorem rtMutexRelease_move (thread : Nat) :
    Move flag mutex (.release thread) (mutex.rtMutexRelease thread) := by
  unfold rtMutexRelease
  split
  · exact .outside _ mutex.resumed
  · next notOther =>
      have owns : mutex.owner = some thread := Decidable.of_not_not notOther
      dsimp only
      split
      · next last => exact .released thread owns last
      · next more => exact .lessNested thread owns more

end Mutex

theorem mutexStep_move {call : MutexCall} (taken : mutexStep flag mutex call = some mutex') :
    mutex.Move flag call mutex' := by
  cases call with
  | take thread time =>
      rw [mutexStep] at taken
      split at taken
      · next outside =>
          cases taken
          exact Mutex.rtMutexTake_move time outside
      · cases taken
  | release thread =>
      rw [mutexStep] at taken
      split at taken
      · cases taken
        exact Mutex.rtMutexRelease_move thread
      · cases taken
  | returns thread =>
      rw [mutexStep] at taken
      split at taken
      · cases taken
        exact .outside _ _
      · cases taken
  | expires thread =>
      rw [mutexStep, Mutex.expire] at taken
      split at taken
      · cases taken
        exact .expired _ _ _ List.filter_sublist
      · cases taken

namespace Mutex

/-! ### Owner, waiters and priorities -/

/-- The owner, the list of waiters and the priorities agree. -/
structure Sound (flag : IpcFlag) (initPriority : Nat → Nat) (mutex : Mutex) : Prop where
  free : mutex.owner = none → mutex.value = 1 ∧ mutex.suspendThread = []
  held : mutex.owner ≠ none → mutex.value = 0
  apart : ∀ waiter ∈ mutex.suspendThread, mutex.owner ≠ some waiter.thread
  once : (mutex.suspendThread.map MutexWaiter.thread).Nodup
  own : ∀ thread, mutex.owner ≠ some thread →
    mutex.currentPriority thread = initPriority thread
  raised : ∀ owner, mutex.owner = some owner →
    mutex.originalPriority = initPriority owner ∧
      mutex.currentPriority owner ≤ initPriority owner
  urgent : flag = .prio → ∀ owner, mutex.owner = some owner →
    ∀ waiter ∈ mutex.suspendThread, mutex.currentPriority owner ≤ initPriority waiter.thread
  sorted : flag = .prio → mutex.suspendThread.Pairwise fun a b =>
    initPriority a.thread ≤ initPriority b.thread

/-- What is lent: the owner's priority becomes the more urgent one of the two, and no
other priority changes. -/
theorem lent_owner {owner : Nat} (owns : mutex.owner = some owner) (thread : Nat) :
    mutex.lent thread owner = min (mutex.currentPriority thread) (mutex.currentPriority owner) := by
  rw [lent, owns]
  dsimp only
  split
  · next below =>
      rw [Function.update_self]
      omega
  · omega

theorem lent_other {thread other : Nat} (differs : mutex.owner ≠ some other) :
    mutex.lent thread other = mutex.currentPriority other := by
  cases owns : mutex.owner with
  | none => rw [lent, owns]
  | some owner =>
      rw [lent, owns]
      dsimp only
      split
      · refine Function.update_of_ne (fun same => differs ?_) _ _
        rw [owns, same]
      · rfl

theorem Sound.waits (sound : mutex.Sound flag initPriority) {waiter : MutexWaiter}
    (other : mutex.owner ≠ some waiter.thread) (held : mutex.value = 0)
    (fresh : ∀ known ∈ mutex.suspendThread, known.thread ≠ waiter.thread) :
    Sound flag initPriority
      { mutex with
        currentPriority := mutex.lent waiter.thread
        suspendThread := rtIpcListSuspend MutexWaiter.thread flag (mutex.lent waiter.thread)
          waiter mutex.suspendThread } := by
  have queued := rtIpcListSuspend_perm MutexWaiter.thread flag (mutex.lent waiter.thread) waiter
    mutex.suspendThread
  have mine : mutex.currentPriority waiter.thread = initPriority waiter.thread :=
    sound.own waiter.thread other
  refine ⟨fun none => ?_, sound.held, fun known member => ?_, ?_,
    fun thread (differs : mutex.owner ≠ some thread) => ?_,
    fun owner (owns : mutex.owner = some owner) => ?_,
    fun isPrio owner (owns : mutex.owner = some owner) known member => ?_, fun isPrio => ?_⟩
  · exact absurd held (by rw [(sound.free none).1]; decide)
  · rcases List.mem_cons.mp (queued.mem_iff.mp member) with rfl | earlier
    · exact other
    · exact sound.apart known earlier
  · rw [(queued.map MutexWaiter.thread).nodup_iff, List.map_cons, List.nodup_cons]
    refine ⟨fun member => ?_, sound.once⟩
    obtain ⟨known, isKnown, same⟩ := List.mem_map.mp member
    exact fresh known isKnown same
  · exact (lent_other differs).trans (sound.own thread differs)
  · refine ⟨(sound.raised owner owns).1, ?_⟩
    have le := (sound.raised owner owns).2
    show mutex.lent waiter.thread owner ≤ initPriority owner
    rw [lent_owner owns]
    omega
  · show mutex.lent waiter.thread owner ≤ initPriority known.thread
    rw [lent_owner owns, mine]
    rcases List.mem_cons.mp (queued.mem_iff.mp member) with rfl | earlier
    · exact Nat.min_le_left _ _
    · exact Nat.le_trans (Nat.min_le_right _ _) (sound.urgent isPrio owner owns known earlier)
  · subst isPrio
    have compared : ∀ known ∈ mutex.suspendThread,
        mutex.lent waiter.thread known.thread = initPriority known.thread := fun known member =>
      (lent_other (sound.apart known member)).trans (sound.own _ (sound.apart known member))
    have ours : mutex.lent waiter.thread waiter.thread = initPriority waiter.thread :=
      (lent_other other).trans mine
    refine insertAhead_pairwise (fun _ _ _ => Nat.le_trans) ?_ ?_ (sound.sorted rfl)
    · intro known member isAhead
      have less := of_decide_eq_true isAhead
      rw [ours, compared known member] at less
      exact Nat.le_of_lt less
    · intro known member notAhead
      have less := of_decide_eq_false notAhead
      rw [ours, compared known member] at less
      exact Nat.le_of_not_lt less

/-- After the hand-over every thread has its own priority again. -/
theorem Sound.handOver {thread : Nat} {depth : Nat → Nat} {hold : Nat}
    (sound : mutex.Sound flag initPriority) (owns : mutex.owner = some thread) :
    Sound flag initPriority
      (Mutex.handOver { mutex with hold := hold, depth := depth } thread) := by
  have restored : (if mutex.originalPriority ≠ mutex.currentPriority thread then
      Function.update mutex.currentPriority thread mutex.originalPriority
      else mutex.currentPriority) = initPriority := by
    funext other
    by_cases same : other = thread
    · subst same
      split
      · rw [Function.update_self, (sound.raised other owns).1]
      · next equal =>
          rw [← Decidable.of_not_not equal, (sound.raised other owns).1]
    · have differs : mutex.owner ≠ some other := by
        rw [owns]
        exact fun equal => same (Option.some.inj equal).symm
      split
      · rw [Function.update_of_ne same, sound.own other differs]
      · exact sound.own other differs
  unfold Mutex.handOver
  dsimp only
  rw [restored]
  have once := sound.once
  have sorted := sound.sorted
  split
  · next waiter rest isList =>
      rw [isList, List.map_cons, List.nodup_cons] at once
      have zero := sound.held (by rw [owns]; exact Option.some_ne_none _)
      refine ⟨fun none => absurd none (Option.some_ne_none _), fun _ => zero,
        fun known member same => ?_, once.2, fun _ _ => rfl, fun owner isOwner => ?_,
        fun isPrio owner isOwner known member => ?_, fun isPrio => ?_⟩
      · exact once.1 (Option.some.inj same ▸ List.mem_map_of_mem member)
      · rw [Option.some.inj isOwner]
        exact ⟨rfl, Nat.le_refl _⟩
      · rw [← Option.some.inj isOwner]
        have ordered := sorted isPrio
        rw [isList, List.pairwise_cons] at ordered
        exact ordered.1 known member
      · have ordered := sorted isPrio
        rw [isList, List.pairwise_cons] at ordered
        exact ordered.2
  · next isList =>
      have zero := sound.held (by rw [owns]; exact Option.some_ne_none _)
      refine ⟨fun _ => ⟨?_, isList⟩, fun some => absurd rfl some,
        fun _ _ same => absurd same.symm (Option.some_ne_none _), once, fun _ _ => rfl,
        fun owner isOwner => absurd isOwner.symm (Option.some_ne_none _),
        fun _ owner isOwner => absurd isOwner.symm (Option.some_ne_none _), sorted⟩
      show (mutex.value + 1) % 2 ^ 16 = 1
      omega

/-- How often it is held, and who is on the way out, is no matter here. -/
theorem Sound.counters (sound : mutex.Sound flag initPriority) (hold : Nat)
    (resumed : List Nat) (depth : Nat → Nat) :
    Sound flag initPriority
      { mutex with
        hold := hold
        resumed := resumed
        depth := depth } :=
  ⟨sound.free, sound.held, sound.apart, sound.once, sound.own, sound.raised, sound.urgent,
    sound.sorted⟩

theorem Sound.free_of_value (sound : mutex.Sound flag initPriority) (free : 0 < mutex.value) :
    mutex.owner = none := by
  by_contra owned
  have := sound.held owned
  omega

theorem Sound.taken (sound : mutex.Sound flag initPriority) {thread hold : Nat}
    {depth : Nat → Nat} (free : 0 < mutex.value) :
    Sound flag initPriority
      { mutex with
        value := mutex.value - 1
        owner := some thread
        originalPriority := mutex.currentPriority thread
        hold := hold
        depth := depth } := by
  have unowned := sound.free_of_value free
  obtain ⟨one, nobody⟩ := sound.free unowned
  have own : ∀ other, mutex.currentPriority other = initPriority other := by
    intro other
    refine sound.own other ?_
    rw [unowned]
    exact fun same => absurd same.symm (Option.some_ne_none other)
  have noWaiter : ∀ waiter, waiter ∉ mutex.suspendThread := by
    rw [nobody]
    exact fun _ => List.not_mem_nil
  refine ⟨fun none => absurd none (Option.some_ne_none thread), fun _ => ?_,
    fun waiter member => absurd member (noWaiter waiter), sound.once, fun other _ => own other,
    fun owner isOwner => ?_, fun _ _ _ waiter member => absurd member (noWaiter waiter),
    sound.sorted⟩
  · show mutex.value - 1 = 0
    omega
  · rw [← Option.some.inj isOwner]
    exact ⟨own thread, Nat.le_of_eq (own thread)⟩

theorem Sound.expired (sound : mutex.Sound flag initPriority) {list : List MutexWaiter}
    {resumed : List Nat} (fewer : list.Sublist mutex.suspendThread) :
    Sound flag initPriority
      { mutex with
        suspendThread := list
        resumed := resumed } :=
  ⟨fun none => ⟨(sound.free none).1, List.sublist_nil.mp ((sound.free none).2 ▸ fewer)⟩,
    sound.held, fun waiter member => sound.apart waiter (fewer.mem member),
    sound.once.sublist (fewer.map MutexWaiter.thread), sound.own, sound.raised,
    fun isPrio owner owns waiter member =>
      sound.urgent isPrio owner owns waiter (fewer.mem member),
    fun isPrio => (sound.sorted isPrio).sublist fewer⟩

theorem Sound.step (sound : mutex.Sound flag initPriority) {call : MutexCall}
    (move : mutex.Move flag call mutex') : mutex'.Sound flag initPriority := by
  cases move with
  | outside _ resumed => exact sound.counters _ _ _
  | nested thread time owns => exact sound.counters _ _ _
  | taken thread time free => exact sound.taken free
  | waits time waiter other held fresh => exact sound.waits other held fresh
  | lessNested thread owns more => exact sound.counters _ _ _
  | released thread owns last => exact sound.handOver owns
  | expired thread list resumed fewer => exact sound.expired fewer

/-! ### How deep it is taken -/

/-- Only the owner has taken it, at most 256 times more than it has released it, and
`hold` counts that in 8 bits. -/
structure Counted (mutex : Mutex) : Prop where
  others : ∀ thread, mutex.owner ≠ some thread → mutex.depth thread = 0
  owner : ∀ owner, mutex.owner = some owner →
    0 < mutex.depth owner ∧ mutex.depth owner ≤ 2 ^ 8 ∧
      mutex.hold = mutex.depth owner % 2 ^ 8
  free : mutex.owner = none → mutex.hold = 0

/-- The owner has taken it another number of times, as `hold` says. -/
theorem Counted.recount (counted : mutex.Counted) {thread hold count : Nat}
    (owns : mutex.owner = some thread) (positive : 0 < count) (bounded : count ≤ 2 ^ 8)
    (holds : hold = count % 2 ^ 8) :
    Counted
      { mutex with
        hold := hold
        depth := Function.update mutex.depth thread count } := by
  refine ⟨fun other (differs : mutex.owner ≠ some other) => ?_,
    fun owner (isOwner : mutex.owner = some owner) => ?_,
    fun (none : mutex.owner = none) => absurd (owns.symm.trans none) (Option.some_ne_none thread)⟩
  · have apart : other ≠ thread := fun same => differs (same ▸ owns)
    exact (Function.update_of_ne apart _ _).trans (counted.others other differs)
  · obtain rfl := Option.some.inj (owns.symm.trans isOwner)
    simp only [Function.update_self]
    exact ⟨positive, bounded, holds⟩

theorem Counted.nested (counted : mutex.Counted) {thread : Nat}
    (owns : mutex.owner = some thread) (shallow : mutex.depth thread < 2 ^ 8) :
    Counted
      { mutex with
        hold := (mutex.hold + 1) % 2 ^ 8
        depth := Function.update mutex.depth thread (mutex.depth thread + 1) } := by
  obtain ⟨_, _, holds⟩ := counted.owner thread owns
  exact counted.recount owns (Nat.succ_pos _) shallow (by omega)

theorem Counted.lessNested (counted : mutex.Counted) {thread : Nat}
    (owns : mutex.owner = some thread) (more : (mutex.hold + 2 ^ 8 - 1) % 2 ^ 8 ≠ 0) :
    Counted
      { mutex with
        hold := (mutex.hold + 2 ^ 8 - 1) % 2 ^ 8
        depth := Function.update mutex.depth thread (mutex.depth thread - 1) } := by
  obtain ⟨_, _, holds⟩ := counted.owner thread owns
  exact counted.recount owns (by omega) (by omega) (by omega)

theorem Counted.taken (counted : mutex.Counted) {thread priority : Nat}
    (unowned : mutex.owner = none) :
    Counted
      { mutex with
        value := mutex.value - 1
        owner := some thread
        originalPriority := priority
        hold := (mutex.hold + 1) % 2 ^ 8
        depth := Function.update mutex.depth thread (mutex.depth thread + 1) } := by
  have zero : ∀ other, mutex.depth other = 0 := by
    intro other
    refine counted.others other ?_
    rw [unowned]
    exact fun same => absurd same.symm (Option.some_ne_none other)
  refine ⟨fun other (differs : some thread ≠ some other) => ?_,
    fun owner (isOwner : some thread = some owner) => ?_,
    fun none => absurd none (Option.some_ne_none thread)⟩
  · have apart : other ≠ thread := fun same => differs (congrArg some same.symm)
    exact (Function.update_of_ne apart _ _).trans (zero other)
  · obtain rfl := Option.some.inj isOwner
    simp only [Function.update_self, zero, counted.free unowned]
    decide

/-- The count comes to 0 with the last release only. -/
theorem Counted.released (counted : mutex.Counted) {thread : Nat}
    (owns : mutex.owner = some thread) (last : (mutex.hold + 2 ^ 8 - 1) % 2 ^ 8 = 0) :
    Counted (Mutex.handOver
      { mutex with
        hold := (mutex.hold + 2 ^ 8 - 1) % 2 ^ 8
        depth := Function.update mutex.depth thread (mutex.depth thread - 1) } thread) := by
  obtain ⟨_, _, holds⟩ := counted.owner thread owns
  have single : mutex.depth thread - 1 = 0 := by omega
  have zero : ∀ other, Function.update mutex.depth thread (mutex.depth thread - 1) other = 0 := by
    intro other
    by_cases same : other = thread
    · rw [same, Function.update_self, single]
    · have differs : mutex.owner ≠ some other := by
        rw [owns]
        exact fun equal => same (Option.some.inj equal).symm
      rw [Function.update_of_ne same, counted.others other differs]
  unfold Mutex.handOver
  dsimp only
  split
  · next waiter rest _ =>
      refine ⟨fun other (differs : some waiter.thread ≠ some other) => ?_,
        fun owner (isOwner : some waiter.thread = some owner) => ?_,
        fun none => absurd none (Option.some_ne_none waiter.thread)⟩
      · have apart : other ≠ waiter.thread := fun same => differs (congrArg some same.symm)
        exact (Function.update_of_ne apart _ _).trans (zero other)
      · obtain rfl := Option.some.inj isOwner
        simp only [Function.update_self, zero, last]
        decide
  · exact ⟨fun other _ => zero other,
      fun owner isOwner => absurd isOwner.symm (Option.some_ne_none owner), fun _ => last⟩

/-- The release that brings the count to 0 leaves the mutex to another or to nobody. -/
theorem rtMutexRelease_last {thread : Nat} (owns : mutex.owner = some thread)
    (single : mutex.hold = 1) (apart : ∀ waiter ∈ mutex.suspendThread, waiter.thread ≠ thread) :
    (mutex.rtMutexRelease thread).depth thread = mutex.depth thread - 1 ∧
      (mutex.rtMutexRelease thread).owner ≠ some thread := by
  have notOther : ¬ mutex.owner ≠ some thread := fun other => other owns
  have last : (mutex.hold + 2 ^ 8 - 1) % 2 ^ 8 = 0 := by omega
  rw [rtMutexRelease, if_neg notOther]
  dsimp only
  rw [if_pos last]
  unfold handOver
  dsimp only
  split
  · next waiter rest isList =>
      have differs : waiter.thread ≠ thread := apart waiter (isList ▸ List.mem_cons_self)
      refine ⟨?_, fun same => differs (Option.some.inj same)⟩
      dsimp only
      rw [Function.update_of_ne differs.symm, Function.update_self]
  · exact ⟨Function.update_self _ _ _, fun same => absurd same.symm (Option.some_ne_none thread)⟩

/-- The call does not take the mutex a 257th time. -/
def isShallow (mutex : Mutex) : MutexCall → Bool
  | .take thread _ => mutex.owner ≠ some thread || mutex.depth thread < 2 ^ 8
  | _ => true

theorem Counted.step (counted : mutex.Counted) (sound : mutex.Sound flag initPriority)
    {call : MutexCall} (shallow : mutex.isShallow call = true)
    (move : mutex.Move flag call mutex') : mutex'.Counted := by
  cases move with
  | outside _ resumed => exact ⟨counted.others, counted.owner, counted.free⟩
  | nested thread time owns =>
      have below : mutex.depth thread < 2 ^ 8 := by
        simpa [isShallow, owns] using shallow
      exact counted.nested owns below
  | taken thread time free => exact counted.taken (sound.free_of_value free)
  | waits time waiter other held fresh => exact ⟨counted.others, counted.owner, counted.free⟩
  | lessNested thread owns more => exact counted.lessNested owns more
  | released thread owns last => exact counted.released owns last
  | expired thread list resumed fewer => exact ⟨counted.others, counted.owner, counted.free⟩

end Mutex

/-! ### Any order of calls -/

theorem mutex_sound (reachable : (mutexes flag initPriority).Reachable mutex) :
    mutex.Sound flag initPriority := by
  refine reachable.invariant (Mutex.Sound flag initPriority) ?_
    fun _ _ _ sound _ taken => sound.step (mutexStep_move taken)
  exact ⟨fun _ => ⟨rfl, rfl⟩, fun some => absurd rfl some,
    fun _ member => absurd member List.not_mem_nil, List.nodup_nil, fun _ _ => rfl,
    fun owner isOwner => absurd isOwner.symm (Option.some_ne_none owner),
    fun _ owner isOwner => absurd isOwner.symm (Option.some_ne_none owner),
    fun _ => List.Pairwise.nil⟩

/-- A run that never takes the mutex more than 256 deep. -/
theorem mutex_counted
    (reach : (mutexes flag initPriority).Reaches (fun mutex call => mutex.isShallow call) mutex) :
    mutex.Counted := by
  refine reach.invariant_of (fun _ reach => mutex_sound reach.reachable) Mutex.Counted ?_
    fun _ _ _ sound counted shallow taken => counted.step sound shallow (mutexStep_move taken)
  exact ⟨fun _ _ => rfl, fun owner isOwner => absurd isOwner.symm (Option.some_ne_none owner),
    fun _ => rfl⟩

/-- The thread with the least urgent priority takes the mutex twice; two others wait. -/
def threeThreads : List MutexCall := [.take 3 (-1), .take 3 0, .take 2 (-1), .take 1 5]

/-- Mutual exclusion: up to 256 takes deep, a thread has taken the mutex more often than
released it exactly when it is the owner. -/
theorem mutex_exclusive
    (reach : (mutexes flag initPriority).Reaches (fun mutex call => mutex.isShallow call) mutex)
    (thread : Nat) : 0 < mutex.depth thread ↔ mutex.owner = some thread := by
  have counted := mutex_counted reach
  constructor
  · intro deep
    by_contra other
    have := counted.others thread other
    omega
  · exact fun owns => (counted.owner thread owns).1

theorem mutex_exclusive_run :
    0 < ((mutexes .prio id).runWhile Mutex.isShallow (mutexes .prio id).init
      threeThreads).depth 3 ∧
    ¬ 0 < ((mutexes .prio id).runWhile Mutex.isShallow (mutexes .prio id).init
      threeThreads).depth 2 := by
  have owned : ((mutexes .prio id).runWhile Mutex.isShallow (mutexes .prio id).init
      threeThreads).owner = some 3 := by decide
  have exclusive := mutex_exclusive
    ((mutexes .prio id).runWhile_reaches Mutex.isShallow threeThreads)
  refine ⟨(exclusive 3).mpr owned, fun deep => ?_⟩
  have second := (exclusive 2).mp deep
  rw [owned] at second
  exact absurd second (by decide)

/-- The 257th take is lost: after the next release the thread is no longer the owner,
with 256 releases still to come. -/
theorem mutex_too_deep
    (reach : (mutexes flag initPriority).Reaches (fun mutex call => mutex.isShallow call) mutex)
    {thread : Nat} (owns : mutex.owner = some thread) (deep : mutex.depth thread = 2 ^ 8)
    (outside : mutex.isOutside thread = true) (time : Int) :
    ∃ mutex' mutex'', mutexStep flag mutex (.take thread time) = some mutex' ∧
      mutexStep flag mutex' (.release thread) = some mutex'' ∧
      mutex''.depth thread = 2 ^ 8 ∧ mutex''.owner ≠ some thread := by
  have apart := (mutex_sound reach.reachable).apart
  have wrapped : mutex.hold = 0 := by
    have holds := ((mutex_counted reach).owner thread owns).2.2
    omega
  let deeper : Mutex :=
    { mutex with
      hold := 1
      depth := Function.update mutex.depth thread (2 ^ 8 + 1) }
  have takes : mutexStep flag mutex (.take thread time) = some deeper := by
    have counts : (mutex.hold + 1) % 2 ^ 8 = 1 := by omega
    rw [mutexStep, if_pos outside, Mutex.rtMutexTake, if_pos owns, counts, deep]
  have releases : mutexStep flag deeper (.release thread) =
      some (deeper.rtMutexRelease thread) := if_pos outside
  have leaves := @Mutex.rtMutexRelease_last deeper thread owns rfl fun waiter member same =>
    apart waiter member (same ▸ owns)
  refine ⟨deeper, deeper.rtMutexRelease thread, takes, releases, ?_, leaves.2⟩
  have count : deeper.depth thread = 2 ^ 8 + 1 := Function.update_self _ _ _
  rw [leaves.1, count]
  omega

/-- A thread can take the mutex 256 deep. -/
theorem mutex_nested (n : Nat) (shallow : n < 2 ^ 8) :
    ∃ mutex, (mutexes .prio id).Reaches (fun mutex call => mutex.isShallow call) mutex ∧
      mutex.owner = some 3 ∧ mutex.depth 3 = n + 1 ∧ mutex.isOutside 3 = true := by
  induction n with
  | zero =>
      exact ⟨_, (mutexes .prio id).runWhile_reaches Mutex.isShallow [.take 3 0], rfl, rfl, rfl⟩
  | succ n inductionHypothesis =>
      obtain ⟨mutex, reach, owns, deep, outside⟩ := inductionHypothesis (by omega)
      have admitted : mutex.isShallow (.take 3 0) = true := by
        have below : n + 1 < 2 ^ 8 := shallow
        rw [Mutex.isShallow, deep, decide_eq_true below, Bool.or_true]
      have taken : mutexStep .prio mutex (.take 3 0) =
          some { mutex with
            hold := (mutex.hold + 1) % 2 ^ 8
            depth := Function.update mutex.depth 3 (mutex.depth 3 + 1) } := by
        rw [mutexStep, if_pos outside, Mutex.rtMutexTake, if_pos owns]
      refine ⟨_, reach.step admitted taken, owns, ?_, outside⟩
      show Function.update mutex.depth 3 (mutex.depth 3 + 1) 3 = n + 1 + 1
      rw [Function.update_self, deep]

theorem mutex_too_deep_run : ∃ mutex mutex' mutex'', mutex.depth 3 = 2 ^ 8 ∧
    mutexStep .prio mutex (.take 3 0) = some mutex' ∧
    mutexStep .prio mutex' (.release 3) = some mutex'' ∧
    mutex''.depth 3 = 2 ^ 8 ∧ mutex''.owner ≠ some 3 := by
  obtain ⟨mutex, reach, owns, deep, outside⟩ := mutex_nested 255 (by decide)
  obtain ⟨mutex', mutex'', found⟩ := mutex_too_deep reach owns deep outside 0
  exact ⟨mutex, mutex', mutex'', deep, found⟩

/-- No wake-up is lost: whoever waits, waits for an owner that does not wait itself. -/
theorem mutex_waits_for_owner (reachable : (mutexes flag initPriority).Reachable mutex) :
    ∀ waiter ∈ mutex.suspendThread, ∃ owner, mutex.owner = some owner ∧
      ∀ other ∈ mutex.suspendThread, other.thread ≠ owner := by
  have sound := mutex_sound reachable
  intro waiter member
  cases owns : mutex.owner with
  | none =>
      rw [(sound.free owns).2] at member
      exact absurd member List.not_mem_nil
  | some owner =>
      refine ⟨owner, rfl, fun other isWaiting same => sound.apart other isWaiting ?_⟩
      rw [owns, same]

theorem mutex_waits_for_owner_run :
    ((mutexes .prio id).run threeThreads).suspendThread = [⟨1, true⟩, ⟨2, false⟩] ∧
      ∀ waiter ∈ ((mutexes .prio id).run threeThreads).suspendThread, ∃ owner,
        ((mutexes .prio id).run threeThreads).owner = some owner ∧
          ∀ other ∈ ((mutexes .prio id).run threeThreads).suspendThread, other.thread ≠ owner :=
  ⟨by decide, mutex_waits_for_owner ((mutexes .prio id).run_reachable threeThreads)⟩

/-- No inversion: at a mutex with a priority queue the owner is at least as urgent as
everyone who waits for it. -/
theorem mutex_no_inversion (reachable : (mutexes .prio initPriority).Reachable mutex)
    {owner : Nat} (owns : mutex.owner = some owner) :
    ∀ waiter ∈ mutex.suspendThread,
      mutex.currentPriority owner ≤ mutex.currentPriority waiter.thread := by
  have sound := mutex_sound reachable
  intro waiter member
  rw [sound.own waiter.thread (sound.apart waiter member)]
  exact sound.urgent rfl owner owns waiter member

theorem mutex_no_inversion_run :
    ((mutexes .prio id).run threeThreads).suspendThread = [⟨1, true⟩, ⟨2, false⟩] ∧
      ∀ waiter ∈ ((mutexes .prio id).run threeThreads).suspendThread,
        ((mutexes .prio id).run threeThreads).currentPriority 3 ≤
          ((mutexes .prio id).run threeThreads).currentPriority waiter.thread :=
  ⟨by decide, mutex_no_inversion ((mutexes .prio id).run_reachable threeThreads) (by decide)⟩

/-- What was lent goes back: whoever does not own the mutex has the priority it started
with, and the owner none that is less urgent. -/
theorem mutex_priority_back (reachable : (mutexes flag initPriority).Reachable mutex)
    (thread : Nat) :
    (mutex.owner ≠ some thread → mutex.currentPriority thread = initPriority thread) ∧
      mutex.currentPriority thread ≤ initPriority thread := by
  have sound := mutex_sound reachable
  refine ⟨sound.own thread, ?_⟩
  by_cases owns : mutex.owner = some thread
  · exact (sound.raised thread owns).2
  · exact Nat.le_of_eq (sound.own thread owns)

/-- The first owner had priority 1 while it held the mutex. -/
theorem mutex_priority_back_run :
    ((mutexes .prio id).run threeThreads).currentPriority 3 = 1 ∧
      ((mutexes .prio id).run
        (threeThreads ++ [.release 3, .release 3])).currentPriority 3 = 3 := by
  have reachable := (mutexes .prio id).run_reachable (threeThreads ++ [.release 3, .release 3])
  have handedOver : ((mutexes .prio id).run (threeThreads ++ [.release 3, .release 3])).owner =
      some 1 := by decide
  have back := (mutex_priority_back reachable 3).1 (by rw [handedOver]; decide)
  exact ⟨by decide, back⟩

end RttIctl.Kernel
