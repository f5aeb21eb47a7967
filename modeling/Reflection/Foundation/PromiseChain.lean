/-
A chain of promises that lets one caller in at a time.

A call takes the chain's tail, replaces it by a promise that settles after the old tail and after
the call's own release, and goes on when the old tail has settled. Tail 0 is settled from the
start; call `n` waits for tail `n` and makes tail `n + 1`. How long a settled promise takes to
reach those who wait for it is left open.
-/

import Reflection.Foundation.Runs

namespace Reflection

structure PromiseChain where
  /-- how many calls were made -/
  arrived : Nat
  /-- the calls that were let in, in the order they were -/
  entered : List Nat
  released : Nat → Bool
  settled : Nat → Bool

namespace PromiseChain

/-- No call yet, and a resolved tail. -/
def resolved : PromiseChain :=
  { arrived := 0
    entered := []
    released := fun _ => false
    settled := fun tail => tail == 0 }

variable (chain : PromiseChain)

def Waiting (call : Nat) : Prop := call < chain.arrived ∧ call ∉ chain.entered

def Inside (call : Nat) : Prop := call ∈ chain.entered ∧ chain.released call = false

def arrive : PromiseChain := { chain with arrived := chain.arrived + 1 }

def enter (call : Nat) : PromiseChain := { chain with entered := chain.entered ++ [call] }

def release (call : Nat) : PromiseChain :=
  { chain with released := Function.update chain.released call true }

def settle (tail : Nat) : PromiseChain :=
  { chain with settled := Function.update chain.settled tail true }

inductive Event
  | arrive
  | enter (call : Nat)
  | release (call : Nat)
  | settle (call : Nat)

inductive Moves : PromiseChain → Event → PromiseChain → Prop
  | arrive {chain : PromiseChain} : Moves chain .arrive chain.arrive
  | enter {chain : PromiseChain} {call : Nat} (waits : chain.Waiting call)
      (ready : chain.settled call = true) : Moves chain (.enter call) (chain.enter call)
  | release {chain : PromiseChain} {call : Nat} (inside : chain.Inside call) :
      Moves chain (.release call) (chain.release call)
  | settle {chain : PromiseChain} {call : Nat} (before : chain.settled call = true)
      (released : chain.released call = true) : Moves chain (.settle call) (chain.settle (call + 1))

/-- Calls get in one after the other, each behind the release of all before it. -/
structure Ordered : Prop where
  start : chain.settled 0 = true
  inOrder : chain.entered = List.range chain.entered.length
  arrivals : chain.entered.length ≤ chain.arrived
  behind : ∀ tail, chain.settled tail = true → ∀ call < tail, chain.released call = true
  ready : ∀ call ∈ chain.entered, chain.settled call = true
  left : ∀ call, chain.released call = true → call ∈ chain.entered

variable {chain} {after : PromiseChain} {event : Event}

theorem resolved_ordered : resolved.Ordered := by
  refine ⟨rfl, rfl, Nat.le_refl 0, ?_, ?_, ?_⟩
  · intro tail settled call earlier
    have first : tail = 0 := beq_iff_eq.mp settled
    omega
  · intro call absent
    cases absent
  · intro call absent
    cases absent

theorem Ordered.mem_entered (ordered : chain.Ordered) (call : Nat) :
    call ∈ chain.entered ↔ call < chain.entered.length := by
  rw [ordered.inOrder, List.mem_range, List.length_range]

/-- Whoever is ready to get in is the next in the order of arrival. -/
theorem Ordered.next_in (ordered : chain.Ordered) {call : Nat} (waits : chain.Waiting call)
    (ready : chain.settled call = true) : call = chain.entered.length := by
  have notYet : ¬ call < chain.entered.length := fun early =>
    waits.2 ((ordered.mem_entered call).mpr early)
  have allBefore : ∀ earlier < call, earlier < chain.entered.length := fun earlier before =>
    (ordered.mem_entered earlier).mp (ordered.left earlier (ordered.behind call ready earlier before))
  rcases Nat.eq_zero_or_pos call with first | later
  · omega
  · have last := allBefore (call - 1) (by omega)
    omega

theorem ordered_step (ordered : chain.Ordered) (move : Moves chain event after) : after.Ordered := by
  cases move with
  | arrive =>
      exact
        { start := ordered.start
          inOrder := ordered.inOrder
          arrivals := Nat.le_succ_of_le ordered.arrivals
          behind := ordered.behind
          ready := ordered.ready
          left := ordered.left }
  | @enter call waits ready =>
      have next := ordered.next_in waits ready
      refine ⟨ordered.start, ?_, ?_, ordered.behind, ?_, ?_⟩
      · change chain.entered ++ [call] = List.range (chain.entered ++ [call]).length
        rw [List.length_append, List.length_singleton, List.range_succ, ← next]
        have sofar := ordered.inOrder
        rw [← next] at sofar
        rw [← sofar]
      · change (chain.entered ++ [call]).length ≤ chain.arrived
        rw [List.length_append, List.length_singleton, ← next]
        exact waits.1
      · intro other inside
        rcases List.mem_append.mp inside with old | isNew
        · exact ordered.ready other old
        · rw [List.mem_singleton.mp isNew]
          exact ready
      · intro other released
        exact List.mem_append_left _ (ordered.left other released)
  | @release call inside =>
      refine ⟨ordered.start, ordered.inOrder, ordered.arrivals, ?_, ordered.ready, ?_⟩
      · intro tail settled other before
        have already := ordered.behind tail settled other before
        change Function.update chain.released call true other = true
        rcases eq_or_ne other call with same | different
        · rw [same, Function.update_self]
        · rw [Function.update_of_ne different]
          exact already
      · intro other released
        rcases eq_or_ne other call with same | different
        · rw [same]
          exact inside.1
        · change Function.update chain.released call true other = true at released
          rw [Function.update_of_ne different] at released
          exact ordered.left other released
  | @settle call before released =>
      refine ⟨?_, ordered.inOrder, ordered.arrivals, ?_, ?_, ordered.left⟩
      · change Function.update chain.settled (call + 1) true 0 = true
        rw [Function.update_of_ne (Nat.succ_ne_zero call).symm]
        exact ordered.start
      · intro tail settled other earlier
        rcases eq_or_ne tail (call + 1) with same | different
        · rcases Nat.lt_succ_iff_lt_or_eq.mp (same ▸ earlier) with strictly | isCall
          · exact ordered.behind call before other strictly
          · rw [isCall]
            exact released
        · change Function.update chain.settled (call + 1) true tail = true at settled
          rw [Function.update_of_ne different] at settled
          exact ordered.behind tail settled other earlier
      · intro other inside
        change Function.update chain.settled (call + 1) true other = true
        rcases eq_or_ne other (call + 1) with same | different
        · rw [same, Function.update_self]
        · rw [Function.update_of_ne different]
          exact ordered.ready other inside

/-- No two calls are inside at once. -/
theorem Ordered.exclusive (ordered : chain.Ordered) {one other : Nat} (inside : chain.Inside one)
    (alsoInside : chain.Inside other) : one = other := by
  have absurdly : ∀ {first second : Nat}, chain.Inside first → chain.Inside second → ¬ first < second := by
    intro first second notLeft isIn earlier
    have released := ordered.behind second (ordered.ready second isIn.1) first earlier
    rw [notLeft.2] at released
    cases released
  rcases Nat.lt_trichotomy one other with before | same | behind
  · exact absurd before (absurdly inside alsoInside)
  · exact same
  · exact absurd behind (absurdly alsoInside inside)

/-! ### The chain does not break -/

/-- Promises settle, and nothing else happens. -/
def Event.Settles : Event → Prop
  | .settle _ => True
  | _ => False

/-- What settling leaves as it is. -/
structure SameCalls (chain after : PromiseChain) : Prop where
  arrived : after.arrived = chain.arrived
  entered : after.entered = chain.entered
  released : after.released = chain.released

/-- When the calls before one have released, the tail it waits for can settle. -/
theorem Ordered.settles (ordered : chain.Ordered) (call : Nat)
    (free : ∀ earlier < call, chain.released earlier = true) :
    ∃ after, Reaches Moves (fun _ event => event.Settles) chain after ∧ SameCalls chain after ∧
      after.settled call = true := by
  induction call with
  | zero => exact ⟨chain, Reaches.refl chain, ⟨rfl, rfl, rfl⟩, ordered.start⟩
  | succ call ih =>
      rcases ih fun earlier before => free earlier (Nat.lt_succ_of_lt before) with
        ⟨middle, run, same, isSettled⟩
      have released : middle.released call = true := by
        rw [same.released]
        exact free call (Nat.lt_succ_self call)
      refine ⟨middle.settle (call + 1), run.snoc (.settle call) (.settle isSettled released) trivial,
        ⟨same.arrived, same.entered, same.released⟩, ?_⟩
      exact Function.update_self ..

end PromiseChain

end Reflection
