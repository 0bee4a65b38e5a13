import L4lb.RingBuffer.Spec

/-!
# `L4lb.RingBuffer.Mpmc` — `MPMCRingBuffer<T, Size>` under every interleaving of any threads

`Size = 2^k` slots, each with an atomic `sequence` and a `data` cell, and the two atomic counters
`head_` and `tail_`. Any number of threads (a thread id is a `Nat`) each run `push` or `pop`;
every shared access is one step:

* `push(x)`: load `tail_` · load the slot's `sequence` and compare (`diff == 0`: go on; `diff < 0`:
  return `false`; otherwise retry) · `compare_exchange_weak(pos, pos + 1)` on `tail_` (retry on
  failure) · write `data` · store `sequence = pos + 1` and return `true`;
* `pop()`: the same with `head_`, expected sequence `pos + 1`, a read of `data`, and the store
  `sequence = pos + Size`.

A scheduler picks the next action: a thread invokes an operation, or a thread takes its next step,
in which a `compare_exchange_weak` may fail spuriously. A run records the completed operations
(`Event`), each successful one with the position it claimed.

Positions are unbounded: `size_t` counters and `intptr_t` differences are exact until one counter
passes `2^63`, i.e. for every run of fewer than `2^63` operations.

The header as shipped does not compile: `head_` and `tail_` are
`CacheLineAligned<std::atomic<size_t>>`, which has no `load`, `store` or `compare_exchange_weak`
of its own, and `head_(0)` would copy-construct the `std::atomic` it wraps (a deleted
constructor). Besides, `buffer_.resize(Size)` needs a movable
`Slot`, which its atomic `sequence` makes it not. The model reads `head_` and `tail_` as the
atomics the wrappers hold, starting at `0`, and the buffer as `Size` slots whose sequences start
at their index, which is what the constructor evidently means.

## Contents
- `Inv`: the slot protocol. Positions `[head, tail)` are claimed by pushes, the rest of the window
  `[head, head + Size)` is free; each slot's `sequence` says which phase its current position is
  in, and every thread inside a claim is the only one holding it. The log of completed operations
  matches the counters and the slots.
- `step_inv`, `run_inv`: every step keeps `Inv`.
- **Exactly-once transfer** (`mpmc_exactly_once`).
- **A spurious "empty"** (`pop_empty_while_queued`): a `pop` can return `false`, which its
  documentation reads as "the queue is empty", while an item is queued.
- **When `pop` reports empty and `push` full** (`mpmc_empty_full_exact`): only at the sequence
  load of `head` (resp. `tail`), when the queue is empty (full) or the operation holding that
  position has not published it; with no other operation in progress, exactly when it is.
-/

namespace L4lb

namespace MPMCRingBuffer

variable {α : Type} (k : Nat)

/-- `pos & (Size - 1)`: the slot of position `pos`. -/
def slot (pos : Nat) : Nat := pos &&& (2 ^ k - 1)

/-- Where a thread is: idle, or inside `push(x)` or `pop()` with its local `pos`. -/
inductive Thread (α : Type)
  | idle
  /-- Top of the `push` loop: `tail_` is loaded next. -/
  | pushLoad (x : α)
  /-- `pos` loaded; the slot's `sequence` is loaded next. -/
  | pushSeq (x : α) (pos : Nat)
  /-- `diff == 0`; the `compare_exchange_weak` on `tail_` is next. -/
  | pushCas (x : α) (pos : Nat)
  /-- Position `pos` claimed; `slot->data = item` is next. -/
  | pushWrite (x : α) (pos : Nat)
  /-- Data written; `slot->sequence.store(pos + 1)` is next. -/
  | pushPublish (x : α) (pos : Nat)
  /-- Top of the `pop` loop: `head_` is loaded next. -/
  | popLoad
  /-- `pos` loaded; the slot's `sequence` is loaded next. -/
  | popSeq (pos : Nat)
  /-- `diff == 0`; the `compare_exchange_weak` on `head_` is next. -/
  | popCas (pos : Nat)
  /-- Position `pos` claimed; `item = std::move(slot->data)` is next. -/
  | popRead (pos : Nat)
  /-- `x` read; `slot->sequence.store(pos + Size)` is next. -/
  | popRelease (x : α) (pos : Nat)

/-- The shared state and every thread's position in its code. -/
structure State (α : Type) where
  head : Nat
  tail : Nat
  sequence : Nat → Nat
  data : Nat → α
  threads : Nat → Thread α

/-- The constructor: `head_ = tail_ = 0` and `buffer_[i].sequence = i`; `buf` is the initial
    content of the data cells. -/
def init (buf : Nat → α) : State α := ⟨0, 0, id, buf, fun _ => .idle⟩

/-- Thread `t` moves to `th`. -/
def State.set (s : State α) (t : Nat) (th : Thread α) : State α :=
  { s with threads := Function.update s.threads t th }

/-- A scheduling decision. -/
inductive Act (α : Type)
  /-- Thread `t` calls `push(x)`. -/
  | push (t : Nat) (x : α)
  /-- Thread `t` calls `pop`. -/
  | pop (t : Nat)
  /-- Thread `t` takes its next step; a `compare_exchange_weak` in it fails if `spurious`. -/
  | step (t : Nat) (spurious : Bool)

/-- A completed operation. -/
inductive Event (α : Type)
  /-- `push(x)` by `t` returned `true` after claiming `pos`. -/
  | push (t pos : Nat) (x : α)
  /-- `push(x)` by `t` returned `false`. -/
  | pushFull (t : Nat) (x : α)
  /-- `pop` by `t` returned `true` with `x` after claiming `pos`. -/
  | pop (t pos : Nat) (x : α)
  /-- `pop` by `t` returned `false`. -/
  | popEmpty (t : Nat)
deriving DecidableEq, Repr

/-- One step; a disabled action (invoking while busy, stepping while idle) changes nothing. -/
def step (s : State α) : Act α → State α × Option (Event α)
  | .push t x =>
    match s.threads t with
    | .idle => (s.set t (.pushLoad x), none)
    | _ => (s, none)
  | .pop t =>
    match s.threads t with
    | .idle => (s.set t .popLoad, none)
    | _ => (s, none)
  | .step t spurious =>
    match s.threads t with
    | .idle => (s, none)
    | .pushLoad x => (s.set t (.pushSeq x s.tail), none)
    | .pushSeq x pos =>
      if s.sequence (slot k pos) = pos then (s.set t (.pushCas x pos), none)
      else if s.sequence (slot k pos) < pos then (s.set t .idle, some (.pushFull t x))
      else (s.set t (.pushLoad x), none)
    | .pushCas x pos =>
      if s.tail = pos ∧ spurious = false then
        ({ s.set t (.pushWrite x pos) with tail := pos + 1 }, none)
      else (s.set t (.pushLoad x), none)
    | .pushWrite x pos =>
      ({ s.set t (.pushPublish x pos) with data := Function.update s.data (slot k pos) x }, none)
    | .pushPublish x pos =>
      ({ s.set t .idle with sequence := Function.update s.sequence (slot k pos) (pos + 1) },
        some (.push t pos x))
    | .popLoad => (s.set t (.popSeq s.head), none)
    | .popSeq pos =>
      if s.sequence (slot k pos) = pos + 1 then (s.set t (.popCas pos), none)
      else if s.sequence (slot k pos) < pos + 1 then (s.set t .idle, some (.popEmpty t))
      else (s.set t .popLoad, none)
    | .popCas pos =>
      if s.head = pos ∧ spurious = false then
        ({ s.set t (.popRead pos) with head := pos + 1 }, none)
      else (s.set t .popLoad, none)
    | .popRead pos => (s.set t (.popRelease (s.data (slot k pos)) pos), none)
    | .popRelease x pos =>
      ({ s.set t .idle with sequence := Function.update s.sequence (slot k pos) (pos + 2 ^ k) },
        some (.pop t pos x))

/-- Run a schedule, collecting the completed operations in completion order. -/
def run (s : State α) : List (Act α) → State α × List (Event α)
  | [] => (s, [])
  | a :: as =>
    let r := step k s a
    let r' := run r.1 as
    (r'.1, r.2.toList ++ r'.2)

namespace State

variable (s : State α) (t : Nat) (th : Thread α)

@[simp] theorem set_head : (s.set t th).head = s.head := rfl
@[simp] theorem set_tail : (s.set t th).tail = s.tail := rfl
@[simp] theorem set_sequence : (s.set t th).sequence = s.sequence := rfl
@[simp] theorem set_data : (s.set t th).data = s.data := rfl
@[simp] theorem set_threads : (s.set t th).threads = Function.update s.threads t th := rfl

end State

/-! ## Slot arithmetic -/

theorem slot_eq (p : Nat) : slot k p = p % 2 ^ k := Nat.and_pow_two_sub_one_eq_mod _ _

theorem slot_add_size (p : Nat) : slot k (p + 2 ^ k) = slot k p := by
  simp only [slot_eq, Nat.add_mod_right]

theorem two_le_size (hk : 1 ≤ k) : 2 ≤ 2 ^ k :=
  calc 2 = 2 ^ 1 := rfl
    _ ≤ 2 ^ k := Nat.pow_le_pow_right (by decide) hk

/-- Positions less than `Size` apart sit in different slots. -/
theorem eq_of_slot_eq {a p q : Nat} (hp : a ≤ p) (hp' : p < a + 2 ^ k) (hq : a ≤ q)
    (hq' : q < a + 2 ^ k) (h : slot k p = slot k q) : p = q := by
  rw [slot_eq, slot_eq] at h
  rcases Nat.le_total p q with hpq | hpq
  · have := Nat.eq_zero_of_dvd_of_lt
      (Nat.dvd_of_mod_eq_zero (Nat.sub_mod_eq_zero_of_mod_eq h.symm)) (by omega : q - p < 2 ^ k)
    omega
  · have := Nat.eq_zero_of_dvd_of_lt
      (Nat.dvd_of_mod_eq_zero (Nat.sub_mod_eq_zero_of_mod_eq h)) (by omega : p - q < 2 ^ k)
    omega

/-- With at least two slots, consecutive positions sit in different slots: a published
    sequence `p + 1` is never mistaken for the free sequence of the next position of its slot. -/
theorem slot_succ_ne (hk : 1 ≤ k) (p : Nat) : slot k (p + 1) ≠ slot k p := fun h => by
  have := two_le_size k hk
  have := eq_of_slot_eq k (Nat.le_succ p) (by omega) le_rfl (by omega) h
  omega

/-! ## Claims -/

/-- The position a thread holds as a producer: it won the `tail_` CAS for it and has not stored
    the sequence yet. -/
def Thread.pushPos : Thread α → Option Nat
  | .pushWrite _ p | .pushPublish _ p => some p
  | _ => none

/-- The position a thread holds as a consumer: it won the `head_` CAS for it and has not stored
    the sequence yet. -/
def Thread.popPos : Thread α → Option Nat
  | .popRead p | .popRelease _ p => some p
  | _ => none

/-- Some thread holds position `p` (`f` reads the position a thread holds). -/
def Claim (f : Thread α → Option Nat) (ths : Nat → Thread α) (p : Nat) : Prop :=
  ∃ t, f (ths t) = some p

/-- No two threads hold the same position. -/
def Excl (f : Thread α → Option Nat) (ths : Nat → Thread α) : Prop :=
  ∀ t t' p, f (ths t) = some p → f (ths t') = some p → t = t'

section Update

variable {f : Thread α → Option Nat} {ths : Nat → Thread α} {t : Nat} {th : Thread α}

theorem claim_update (hx : Excl f ths) (p : Nat) :
    Claim f (Function.update ths t th) p ↔ f th = some p ∨ (Claim f ths p ∧ f (ths t) ≠ some p) := by
  constructor
  · rintro ⟨t', h⟩
    rcases eq_or_ne t' t with rfl | ht
    · exact .inl (by simpa using h)
    · rw [Function.update_noteq ht] at h
      exact .inr ⟨⟨t', h⟩, fun h' => ht (hx _ _ _ h h')⟩
  · rintro (h | ⟨⟨t', h⟩, hne⟩)
    · exact ⟨t, by simpa using h⟩
    · have ht : t' ≠ t := by rintro rfl; exact hne h
      exact ⟨t', by rw [Function.update_noteq ht]; exact h⟩

theorem excl_update (hx : Excl f ths) (hnew : ∀ p, f th = some p → ¬ Claim f ths p) :
    Excl f (Function.update ths t th) := by
  intro t₁ t₂ p h₁ h₂
  by_cases e₁ : t₁ = t <;> by_cases e₂ : t₂ = t
  · rw [e₁, e₂]
  · rw [e₁, Function.update_same] at h₁
    rw [Function.update_noteq e₂] at h₂
    exact absurd ⟨t₂, h₂⟩ (hnew p h₁)
  · rw [e₂, Function.update_same] at h₂
    rw [Function.update_noteq e₁] at h₁
    exact absurd ⟨t₁, h₁⟩ (hnew p h₂)
  · rw [Function.update_noteq e₁] at h₁
    rw [Function.update_noteq e₂] at h₂
    exact hx _ _ _ h₁ h₂

/-- A move that keeps the thread's held position changes no claim. -/
theorem apply_update_of_eq (hf : f th = f (ths t)) (t' : Nat) :
    f (Function.update ths t th t') = f (ths t') := by
  rcases eq_or_ne t' t with rfl | h
  · rw [Function.update_same, hf]
  · rw [Function.update_noteq h]

theorem claim_update_of_eq (hf : f th = f (ths t)) (p : Nat) :
    Claim f (Function.update ths t th) p ↔ Claim f ths p := by
  simp only [Claim, apply_update_of_eq hf]

theorem excl_update_of_eq (hf : f th = f (ths t)) (hx : Excl f ths) :
    Excl f (Function.update ths t th) := by
  simpa only [Excl, apply_update_of_eq hf] using hx

end Update

/-! ## The completed operations -/

/-- The position and value of a successful push. -/
def Event.pushed : Event α → Option (Nat × α)
  | .push _ p x => some (p, x)
  | _ => none

/-- The position and value of a successful pop. -/
def Event.popped : Event α → Option (Nat × α)
  | .pop _ p x => some (p, x)
  | _ => none

/-- The successful pushes of a log, as (position, value). -/
def pushes (log : List (Event α)) : List (Nat × α) := log.filterMap Event.pushed

/-- The successful pops of a log, as (position, value). -/
def pops (log : List (Event α)) : List (Nat × α) := log.filterMap Event.popped

@[simp] theorem pushes_append (l₁ l₂ : List (Event α)) : pushes (l₁ ++ l₂) = pushes l₁ ++ pushes l₂ :=
  List.filterMap_append _ _ _

@[simp] theorem pops_append (l₁ l₂ : List (Event α)) : pops (l₁ ++ l₂) = pops l₁ ++ pops l₂ :=
  List.filterMap_append _ _ _

/-! ## The invariant -/

/-- What a thread's local state says about the shared state; `P` are the completed pushes. A
    loaded index is never ahead of the counter, a passed sequence check still holds while the
    counter has not moved, a written item is still in its slot, and an item being read was
    published at its position. -/
def LocalOk (s : State α) (P : List (Nat × α)) : Thread α → Prop
  | .pushSeq _ pos => pos ≤ s.tail
  | .pushCas _ pos => pos ≤ s.tail ∧ (s.tail = pos → s.sequence (slot k pos) = pos)
  | .pushPublish x pos => s.data (slot k pos) = x
  | .popSeq pos => pos ≤ s.head
  | .popCas pos => pos ≤ s.head ∧ (s.head = pos → s.sequence (slot k pos) = pos + 1)
  | .popRead pos => (pos, s.data (slot k pos)) ∈ P
  | .popRelease x pos => (pos, x) ∈ P
  | _ => True

/-- The invariant of every reachable state, with the log of the run that reached it. Positions
    `[head, tail)` are claimed by pushes: published (`sequence = p + 1`) or held by a producer.
    The rest of the window `[head, head + Size)` is free (`sequence = p`) or its slot is still held
    by the consumer of `p - Size`. -/
structure Inv (s : State α) (log : List (Event α)) : Prop where
  head_le : s.head ≤ s.tail
  tail_le : s.tail ≤ s.head + 2 ^ k
  claimed : ∀ p, s.head ≤ p → p < s.tail →
    s.sequence (slot k p) = p + 1 ∨ Claim Thread.pushPos s.threads p
  free : ∀ p, s.tail ≤ p → p < s.head + 2 ^ k →
    s.sequence (slot k p) = p ∨ ∃ q, Claim Thread.popPos s.threads q ∧ q + 2 ^ k = p
  pushing : ∀ p, Claim Thread.pushPos s.threads p →
    s.head ≤ p ∧ p < s.tail ∧ s.sequence (slot k p) = p
  popping : ∀ p, Claim Thread.popPos s.threads p →
    p < s.head ∧ s.tail ≤ p + 2 ^ k ∧ s.sequence (slot k p) = p + 1
  push_excl : Excl Thread.pushPos s.threads
  pop_excl : Excl Thread.popPos s.threads
  thread : ∀ t, LocalOk k s (pushes log) (s.threads t)
  pushed : ∀ p, p ∈ (pushes log).map Prod.fst ↔ p < s.tail ∧ ¬ Claim Thread.pushPos s.threads p
  pushed_nodup : ((pushes log).map Prod.fst).Nodup
  popped : ∀ p, p ∈ (pops log).map Prod.fst ↔ p < s.head ∧ ¬ Claim Thread.popPos s.threads p
  popped_nodup : ((pops log).map Prod.fst).Nodup
  popped_sub : ∀ e ∈ pops log, e ∈ pushes log
  data : ∀ e ∈ pushes log, s.head ≤ e.1 → s.data (slot k e.1) = e.2

theorem pushes_singleton (e : Event α) : pushes [e] = e.pushed.toList := by
  cases h : e.pushed <;> simp [pushes, h]

theorem pops_singleton (e : Event α) : pops [e] = e.popped.toList := by
  cases h : e.popped <;> simp [pops, h]

/-- Adding a position to the completed ones while its holder lets go of it. -/
theorem mem_release_iff {p q n : Nat} {C : Nat → Prop} (hq : q < n) :
    ((p < n ∧ ¬ C p) ∨ p = q) ↔ (p < n ∧ ¬ (C p ∧ p ≠ q)) := by
  rcases eq_or_ne p q with rfl | h
  · simp [hq]
  · simp [h]

/-- A counter moving past a position that a thread now holds. -/
theorem lt_succ_and_not_iff {p n : Nat} {C : Prop} :
    (p < n ∧ ¬ C) ↔ (p < n + 1 ∧ ¬ (p = n ∨ C)) := by
  rw [not_or]
  constructor
  · rintro ⟨h1, h2⟩
    exact ⟨by omega, by omega, h2⟩
  · rintro ⟨h1, h2, h3⟩
    exact ⟨by omega, h3⟩

variable {k} {s : State α} {log : List (Event α)} {t : Nat}

theorem inv_init (buf : Nat → α) : Inv k (init buf) [] where
  head_le := le_rfl
  tail_le := Nat.zero_le _
  claimed := fun p _ h => absurd h (Nat.not_lt_zero p)
  free := fun p _ h => .inl (by
    show slot k p = p
    rw [slot_eq]
    exact Nat.mod_eq_of_lt (by simpa [init] using h))
  pushing := fun _ ⟨_, h⟩ => nomatch h
  popping := fun _ ⟨_, h⟩ => nomatch h
  push_excl := fun _ _ _ h => nomatch h
  pop_excl := fun _ _ _ h => nomatch h
  thread := fun _ => trivial
  pushed := fun p => by simp [pushes, init]
  pushed_nodup := List.nodup_nil
  popped := fun p => by simp [pops, init]
  popped_nodup := List.nodup_nil
  popped_sub := fun _ h => nomatch h
  data := fun _ h => nomatch h

theorem localOk_set {P : List (Nat × α)} {th th' : Thread α} :
    LocalOk k (s.set t th) P th' ↔ LocalOk k s P th' := Iff.rfl

/-- Every thread stays justified when thread `t` moves to `th`: `th` is justified in the new
    state, and each other thread's justification survives the change of shared state. -/
theorem localOk_update {s' : State α} {P P' : List (Nat × α)} {th : Thread α}
    (hs : ∀ t', LocalOk k s P (s.threads t')) (hth : LocalOk k s' P' th)
    (hother : ∀ t', t' ≠ t → LocalOk k s P (s.threads t') → LocalOk k s' P' (s.threads t')) :
    ∀ t', LocalOk k s' P' (Function.update s.threads t th t') := by
  intro t'
  rcases eq_or_ne t' t with rfl | h
  · rw [Function.update_same]
    exact hth
  · rw [Function.update_noteq h]
    exact hother t' h (hs t')

/-- A move of thread `t` that keeps the positions it holds and leaves the shared state alone
    keeps `Inv`, when the new local state is justified. -/
theorem inv_move {log' : List (Event α)} {th : Thread α} (hs : Inv k s log)
    (hpush : th.pushPos = (s.threads t).pushPos) (hpop : th.popPos = (s.threads t).popPos)
    (hP : pushes log' = pushes log) (hQ : pops log' = pops log)
    (hok : LocalOk k s (pushes log) th) : Inv k (s.set t th) log' := by
  have hpu := claim_update_of_eq hpush
  have hpo := claim_update_of_eq hpop
  constructor <;> simp only [State.set_head, State.set_tail, State.set_sequence, State.set_data,
    State.set_threads, hP, hQ, hpu, hpo]
  case head_le => exact hs.head_le
  case tail_le => exact hs.tail_le
  case claimed => exact hs.claimed
  case free => exact hs.free
  case pushing => exact hs.pushing
  case popping => exact hs.popping
  case push_excl => exact excl_update_of_eq hpush hs.push_excl
  case pop_excl => exact excl_update_of_eq hpop hs.pop_excl
  case thread => exact localOk_update hs.thread hok fun _ _ h => localOk_set.mpr h
  case pushed => exact hs.pushed
  case pushed_nodup => exact hs.pushed_nodup
  case popped => exact hs.popped
  case popped_nodup => exact hs.popped_nodup
  case popped_sub => exact hs.popped_sub
  case data => exact hs.data

/-- The `tail_` CAS succeeds: `t` claims position `tail`. -/
theorem inv_pushClaim (hk : 1 ≤ k) (hs : Inv k s log) {x : α}
    (ht : s.threads t = .pushCas x s.tail) :
    Inv k { s.set t (.pushWrite x s.tail) with tail := s.tail + 1 } log := by
  have hS := two_le_size k hk
  have hseq : s.sequence (slot k s.tail) = s.tail := by
    have h := hs.thread t
    rw [ht] at h
    exact h.2 rfl
  have hlt : s.tail < s.head + 2 ^ k := by
    refine lt_of_le_of_ne hs.tail_le fun heq => ?_
    rw [heq, slot_add_size] at hseq
    rcases hs.claimed s.head le_rfl (by omega) with h | h
    · omega
    · have := (hs.pushing _ h).2.2
      omega
  have hpu : ∀ p, Claim Thread.pushPos (Function.update s.threads t (.pushWrite x s.tail)) p ↔
      p = s.tail ∨ Claim Thread.pushPos s.threads p := fun p => by
    rw [claim_update hs.push_excl, ht]
    simp [Thread.pushPos, eq_comm]
  have hpo := claim_update_of_eq (show Thread.popPos (.pushWrite x s.tail) = (s.threads t).popPos by
    rw [ht]; rfl)
  constructor <;> try simp only [State.set_head, State.set_sequence, State.set_data,
    State.set_threads, hpu, hpo]
  case head_le => exact Nat.le_succ_of_le hs.head_le
  case tail_le => exact hlt
  case claimed =>
    intro p h1 h2
    rcases Nat.lt_succ_iff_lt_or_eq.mp h2 with h2 | rfl
    · exact (hs.claimed p h1 h2).imp_right .inr
    · exact .inr (.inl rfl)
  case free => exact fun p h1 h2 => hs.free p (by omega) h2
  case pushing =>
    rintro p (rfl | h)
    · exact ⟨hs.head_le, Nat.lt_succ_self _, hseq⟩
    · obtain ⟨h1, h2, h3⟩ := hs.pushing p h
      exact ⟨h1, by omega, h3⟩
  case popping =>
    intro p h
    obtain ⟨h1, h2, h3⟩ := hs.popping p h
    refine ⟨h1, lt_of_le_of_ne h2 fun e => ?_, h3⟩
    rw [e, slot_add_size] at hseq
    omega
  case push_excl =>
    refine excl_update hs.push_excl fun p hp h => ?_
    cases hp
    have := (hs.pushing _ h).2.1
    omega
  case pop_excl => exact excl_update_of_eq (by rw [ht]; rfl) hs.pop_excl
  case thread =>
    refine localOk_update hs.thread trivial fun t' _ => ?_
    cases s.threads t' <;>
      simp only [LocalOk, State.set_head, State.set_sequence, State.set_data, imp_self] <;> omega
  case pushed =>
    intro p
    rw [hs.pushed]
    exact lt_succ_and_not_iff
  case pushed_nodup => exact hs.pushed_nodup
  case popped => exact hs.popped
  case popped_nodup => exact hs.popped_nodup
  case popped_sub => exact hs.popped_sub
  case data => exact hs.data

/-- `slot->data = item` by the producer holding `pos`: no other position of the window, and no
    position being read, shares its slot. -/
theorem inv_pushWrite (hs : Inv k s log) {x : α} {pos : Nat} (ht : s.threads t = .pushWrite x pos) :
    Inv k { s.set t (.pushPublish x pos) with data := Function.update s.data (slot k pos) x } log := by
  have hclaim : Claim Thread.pushPos s.threads pos := ⟨t, by rw [ht]; rfl⟩
  obtain ⟨hp1, hp2, -⟩ := hs.pushing pos hclaim
  have htl := hs.tail_le
  have hkeep : ∀ {a q}, a ≤ q → q < a + 2 ^ k → a ≤ pos → pos < a + 2 ^ k → q ≠ pos →
      Function.update s.data (slot k pos) x (slot k q) = s.data (slot k q) :=
    fun h1 h2 h3 h4 hne => Function.update_noteq (fun e => hne (eq_of_slot_eq k h1 h2 h3 h4 e)) _ _
  have hpu := claim_update_of_eq (show Thread.pushPos (.pushPublish x pos) = (s.threads t).pushPos by
    rw [ht]; rfl)
  have hpo := claim_update_of_eq (show Thread.popPos (.pushPublish x pos) = (s.threads t).popPos by
    rw [ht]; rfl)
  constructor <;> try simp only [State.set_head, State.set_tail, State.set_sequence,
    State.set_threads, hpu, hpo]
  case head_le => exact hs.head_le
  case tail_le => exact hs.tail_le
  case claimed => exact hs.claimed
  case free => exact hs.free
  case pushing => exact hs.pushing
  case popping => exact hs.popping
  case push_excl => exact excl_update_of_eq (by rw [ht]; rfl) hs.push_excl
  case pop_excl => exact excl_update_of_eq (by rw [ht]; rfl) hs.pop_excl
  case thread =>
    refine localOk_update hs.thread (Function.update_same _ _ _) fun t' h => ?_
    cases hth : s.threads t' <;> simp only [LocalOk, State.set_head, State.set_tail,
      State.set_sequence, imp_self]
    case pushPublish y q =>
      have hq : Claim Thread.pushPos s.threads q := ⟨t', by rw [hth]; rfl⟩
      have hne : q ≠ pos := by
        rintro rfl
        exact h (hs.push_excl _ _ _ (by rw [hth]; rfl) (by rw [ht]; rfl))
      obtain ⟨hq1, hq2, -⟩ := hs.pushing q hq
      rw [hkeep hq1 (by omega) hp1 (by omega) hne]
      exact id
    case popRead q =>
      obtain ⟨hq1, hq2, -⟩ := hs.popping q ⟨t', by rw [hth]; rfl⟩
      rw [hkeep le_rfl (by omega) (by omega) (by omega) (by omega)]
      exact id
  case pushed => exact hs.pushed
  case pushed_nodup => exact hs.pushed_nodup
  case popped => exact hs.popped
  case popped_nodup => exact hs.popped_nodup
  case popped_sub => exact hs.popped_sub
  case data =>
    intro e he h1
    have hin := (hs.pushed e.1).1 (List.mem_map_of_mem _ he)
    have hne : e.1 ≠ pos := fun h => hin.2 (h ▸ hclaim)
    rw [hkeep h1 (by omega) hp1 (by omega) hne]
    exact hs.data e he h1

/-- `slot->sequence.store(pos + 1)`: the push of `pos` completes. -/
theorem inv_pushPublish (hk : 1 ≤ k) (hs : Inv k s log) {x : α} {pos : Nat}
    (ht : s.threads t = .pushPublish x pos) :
    Inv k { s.set t .idle with sequence := Function.update s.sequence (slot k pos) (pos + 1) }
      (log ++ [.push t pos x]) := by
  have hclaim : Claim Thread.pushPos s.threads pos := ⟨t, by rw [ht]; rfl⟩
  obtain ⟨hp1, hp2, hp3⟩ := hs.pushing pos hclaim
  have hx : s.data (slot k pos) = x := by
    have h := hs.thread t
    rwa [ht] at h
  have htl := hs.tail_le
  have hseq : ∀ {q}, slot k q ≠ slot k pos →
      Function.update s.sequence (slot k pos) (pos + 1) (slot k q) = s.sequence (slot k q) :=
    fun h => Function.update_noteq h _ _
  have hwin : ∀ {q}, s.head ≤ q → q < s.head + 2 ^ k → q ≠ pos → slot k q ≠ slot k pos :=
    fun h1 h2 hne e => hne (eq_of_slot_eq k h1 h2 hp1 (by omega) e)
  have hpu : ∀ p, Claim Thread.pushPos (Function.update s.threads t .idle) p ↔
      Claim Thread.pushPos s.threads p ∧ p ≠ pos := fun p => by
    rw [claim_update hs.push_excl, ht]
    simp [Thread.pushPos, eq_comm]
  have hpo := claim_update_of_eq (show Thread.popPos (.idle : Thread α) = (s.threads t).popPos by
    rw [ht]; rfl)
  constructor <;> try simp only [State.set_head, State.set_tail, State.set_data, State.set_threads,
    hpu, hpo, pushes_append, pops_append, pushes_singleton, pops_singleton]
  case head_le => exact hs.head_le
  case tail_le => exact hs.tail_le
  case claimed =>
    intro p h1 h2
    rcases eq_or_ne p pos with rfl | hne
    · exact .inl (Function.update_same _ _ _)
    · rw [hseq (hwin h1 (by omega) hne)]
      exact (hs.claimed p h1 h2).imp_right fun h => ⟨h, hne⟩
  case free =>
    intro p h1 h2
    rw [hseq (hwin (by omega) h2 (by omega))]
    exact hs.free p h1 h2
  case pushing =>
    rintro p ⟨h, hne⟩
    obtain ⟨h1, h2, h3⟩ := hs.pushing p h
    rw [hseq (hwin h1 (by omega) hne)]
    exact ⟨h1, h2, h3⟩
  case popping =>
    intro p h
    obtain ⟨h1, h2, h3⟩ := hs.popping p h
    refine ⟨h1, h2, ?_⟩
    rw [hseq fun e => slot_succ_ne k hk p ?_]
    · exact h3
    · rw [← e, h3] at hp3
      rw [hp3, e]
  case push_excl => exact excl_update hs.push_excl fun p hp => nomatch hp
  case pop_excl => exact excl_update_of_eq (by rw [ht]; rfl) hs.pop_excl
  case thread =>
    refine localOk_update hs.thread trivial fun t' _ => ?_
    cases hth : s.threads t' <;> simp only [LocalOk, State.set_head, State.set_tail,
      State.set_data, pushes_append, pushes_singleton, Event.pushed, Option.toList, imp_self]
    case pushCas y q =>
      rintro ⟨hq, he⟩
      refine ⟨hq, fun e => ?_⟩
      rw [hseq fun hs' => ?_]
      · exact he e
      · have := he e
        rw [hs', hp3] at this
        omega
    case popCas q =>
      rintro ⟨hq, he⟩
      refine ⟨hq, fun e => ?_⟩
      rw [hseq fun hs' => ?_]
      · exact he e
      · have := he e
        rw [hs', hp3] at this
        exact slot_succ_ne k hk q (this ▸ hs'.symm)
    case popRead q => exact List.mem_append_left _
    case popRelease y q => exact List.mem_append_left _
  case pushed =>
    intro p
    simp only [Event.pushed, Option.toList, List.map_append, List.mem_append, hs.pushed,
      List.map_cons, List.map_nil, List.mem_singleton]
    exact mem_release_iff hp2
  case pushed_nodup =>
    simp only [Event.pushed, Option.toList, List.map_append, List.map_cons, List.map_nil]
    exact hs.pushed_nodup.append (List.nodup_singleton _)
      (List.disjoint_singleton.mpr fun h => ((hs.pushed pos).1 h).2 hclaim)
  case popped => simpa [Event.popped] using hs.popped
  case popped_nodup => simpa [Event.popped] using hs.popped_nodup
  case popped_sub =>
    simp only [Event.popped, Event.pushed, Option.toList, List.append_nil]
    exact fun e he => List.mem_append_left _ (hs.popped_sub e he)
  case data =>
    simp only [Event.pushed, Option.toList, List.mem_append, List.mem_singleton]
    rintro e (he | rfl) h1
    · exact hs.data e he h1
    · exact hx

/-- The `head_` CAS succeeds: `t` claims position `head`, which a completed push published. -/
theorem inv_popClaim (hk : 1 ≤ k) (hs : Inv k s log) (ht : s.threads t = .popCas s.head) :
    Inv k { s.set t (.popRead s.head) with head := s.head + 1 } log := by
  have hS := two_le_size k hk
  have hseq : s.sequence (slot k s.head) = s.head + 1 := by
    have h := hs.thread t
    rw [ht] at h
    exact h.2 rfl
  have hnopush : ¬ Claim Thread.pushPos s.threads s.head := fun h => by
    have := (hs.pushing _ h).2.2
    omega
  have hlt : s.head < s.tail := by
    refine lt_of_le_of_ne hs.head_le fun heq => ?_
    rcases hs.free s.head heq.ge (by omega) with h | ⟨q, hq, e⟩
    · omega
    · have := (hs.popping q hq).2.2
      rw [← e, slot_add_size] at hseq
      omega
  have hpu := claim_update_of_eq (show Thread.pushPos (.popRead s.head) = (s.threads t).pushPos by
    rw [ht]; rfl)
  have hpo : ∀ p, Claim Thread.popPos (Function.update s.threads t (.popRead s.head)) p ↔
      p = s.head ∨ Claim Thread.popPos s.threads p := fun p => by
    rw [claim_update hs.pop_excl, ht]
    simp [Thread.popPos, eq_comm]
  constructor <;> try simp only [State.set_tail, State.set_sequence, State.set_data,
    State.set_threads, hpu, hpo]
  case head_le => exact hlt
  case tail_le => exact Nat.le_succ_of_le hs.tail_le |>.trans (by omega)
  case claimed => exact fun p h1 h2 => hs.claimed p (by omega) h2
  case free =>
    intro p h1 h2
    rcases Nat.lt_succ_iff_lt_or_eq.mp (show p < s.head + 2 ^ k + 1 by omega) with h2 | rfl
    · exact (hs.free p h1 h2).imp_right fun ⟨q, hq, e⟩ => ⟨q, .inr hq, e⟩
    · exact .inr ⟨s.head, .inl rfl, rfl⟩
  case pushing =>
    intro p h
    obtain ⟨h1, h2, h3⟩ := hs.pushing p h
    refine ⟨lt_of_le_of_ne h1 fun e => ?_, h2, h3⟩
    exact hnopush (e ▸ h)
  case popping =>
    rintro p (rfl | h)
    · exact ⟨Nat.lt_succ_self _, hs.tail_le, hseq⟩
    · obtain ⟨h1, h2, h3⟩ := hs.popping p h
      exact ⟨by omega, h2, h3⟩
  case push_excl => exact excl_update_of_eq (by rw [ht]; rfl) hs.push_excl
  case pop_excl =>
    refine excl_update hs.pop_excl fun p hp h => ?_
    cases hp
    have := (hs.popping _ h).1
    omega
  case thread =>
    refine localOk_update hs.thread ?_ fun t' _ => ?_
    · obtain ⟨e, he, h1⟩ := List.mem_map.mp ((hs.pushed s.head).2 ⟨hlt, hnopush⟩)
      have := hs.data e he (by omega)
      rw [h1] at this
      show (s.head, s.data (slot k s.head)) ∈ pushes log
      rw [this, ← h1]
      exact he
    · cases s.threads t' <;>
        simp only [LocalOk, State.set_tail, State.set_sequence, State.set_data, imp_self] <;> omega
  case pushed => exact hs.pushed
  case pushed_nodup => exact hs.pushed_nodup
  case popped =>
    intro p
    rw [hs.popped]
    exact lt_succ_and_not_iff
  case popped_nodup => exact hs.popped_nodup
  case popped_sub => exact hs.popped_sub
  case data => exact fun e he h1 => hs.data e he (by omega)

/-- `slot->sequence.store(pos + Size)`: the pop of `pos` completes and frees the slot for
    position `pos + Size`. -/
theorem inv_popRelease (hk : 1 ≤ k) (hs : Inv k s log) {x : α} {pos : Nat}
    (ht : s.threads t = .popRelease x pos) :
    Inv k { s.set t .idle with sequence := Function.update s.sequence (slot k pos) (pos + 2 ^ k) }
      (log ++ [.pop t pos x]) := by
  have hS := two_le_size k hk
  have hclaim : Claim Thread.popPos s.threads pos := ⟨t, by rw [ht]; rfl⟩
  obtain ⟨hp1, hp2, hp3⟩ := hs.popping pos hclaim
  have hx : (pos, x) ∈ pushes log := by
    have h := hs.thread t
    rwa [ht] at h
  have hhl := hs.head_le
  have hseq : ∀ {q}, slot k q ≠ slot k pos →
      Function.update s.sequence (slot k pos) (pos + 2 ^ k) (slot k q) = s.sequence (slot k q) :=
    fun h => Function.update_noteq h _ _
  have hpu := claim_update_of_eq (show Thread.pushPos (.idle : Thread α) = (s.threads t).pushPos by
    rw [ht]; rfl)
  have hpo : ∀ p, Claim Thread.popPos (Function.update s.threads t .idle) p ↔
      Claim Thread.popPos s.threads p ∧ p ≠ pos := fun p => by
    rw [claim_update hs.pop_excl, ht]
    simp [Thread.popPos, eq_comm]
  constructor <;> try simp only [State.set_head, State.set_tail, State.set_data, State.set_threads,
    hpu, hpo, pushes_append, pops_append, pushes_singleton, pops_singleton]
  case head_le => exact hs.head_le
  case tail_le => exact hs.tail_le
  case claimed =>
    intro p h1 h2
    rw [hseq fun e => ?_]
    · exact hs.claimed p h1 h2
    · have := eq_of_slot_eq k le_rfl (by omega) (by omega) (by omega) e.symm
      omega
  case free =>
    intro p h1 h2
    rcases eq_or_ne p (pos + 2 ^ k) with rfl | hne
    · left
      rw [slot_add_size]
      exact Function.update_same _ _ _
    · rw [hseq fun e => hne (eq_of_slot_eq k (a := s.tail) (by omega) (by omega) (by omega)
        (by omega) (e.trans (slot_add_size k pos).symm))]
      exact (hs.free p h1 h2).imp_right fun ⟨q, hq, e⟩ =>
        ⟨q, ⟨hq, by rintro rfl; exact hne e.symm⟩, e⟩
  case pushing =>
    intro p h
    obtain ⟨h1, h2, h3⟩ := hs.pushing p h
    rw [hseq fun e => slot_succ_ne k hk pos ?_]
    · exact ⟨h1, h2, h3⟩
    · rw [e, hp3] at h3
      rw [h3]
      exact e
  case popping =>
    rintro p ⟨h, hne⟩
    obtain ⟨h1, h2, h3⟩ := hs.popping p h
    rw [hseq fun e => hne (eq_of_slot_eq k (a := s.head - 2 ^ k) (by omega) (by omega) (by omega)
      (by omega) e)]
    exact ⟨h1, h2, h3⟩
  case push_excl => exact excl_update_of_eq (by rw [ht]; rfl) hs.push_excl
  case pop_excl => exact excl_update hs.pop_excl fun p hp => nomatch hp
  case thread =>
    refine localOk_update hs.thread trivial fun t' _ => ?_
    cases hth : s.threads t' <;> simp only [LocalOk, State.set_head, State.set_tail,
      State.set_data, pushes_append, pushes_singleton, Event.pushed, Option.toList,
      List.append_nil, imp_self]
    case pushCas y q =>
      rintro ⟨hq, he⟩
      refine ⟨hq, fun e => ?_⟩
      rw [hseq fun hs' => ?_]
      · exact he e
      · have := he e
        rw [hs', hp3] at this
        exact slot_succ_ne k hk pos (this ▸ hs')
    case popCas q =>
      rintro ⟨hq, he⟩
      refine ⟨hq, fun e => ?_⟩
      rw [hseq fun hs' => ?_]
      · exact he e
      · have := he e
        rw [hs', hp3] at this
        omega
  case pushed => simpa [Event.pushed] using hs.pushed
  case pushed_nodup => simpa [Event.pushed] using hs.pushed_nodup
  case popped =>
    intro p
    simp only [Event.popped, Option.toList, List.map_append, List.mem_append, hs.popped,
      List.map_cons, List.map_nil, List.mem_singleton]
    exact mem_release_iff hp1
  case popped_nodup =>
    simp only [Event.popped, Option.toList, List.map_append, List.map_cons, List.map_nil]
    exact hs.popped_nodup.append (List.nodup_singleton _)
      (List.disjoint_singleton.mpr fun h => ((hs.popped pos).1 h).2 hclaim)
  case popped_sub =>
    simp only [Event.popped, Event.pushed, Option.toList, List.append_nil, List.mem_append,
      List.mem_singleton]
    rintro e (he | rfl)
    · exact hs.popped_sub e he
    · exact hx
  case data => simpa [Event.pushed] using hs.data

/-- **Every step keeps `Inv`**, with the operation it completes appended to the log. -/
theorem step_inv (hk : 1 ≤ k) (hs : Inv k s log) (a : Act α) :
    Inv k (step k s a).1 (log ++ (step k s a).2.toList) := by
  cases a with
  | push t x =>
    cases hth : s.threads t <;> simp only [step, hth, Option.toList_none, List.append_nil]
    case idle => exact inv_move hs (by rw [hth]; rfl) (by rw [hth]; rfl) rfl rfl trivial
    all_goals exact hs
  | pop t =>
    cases hth : s.threads t <;> simp only [step, hth, Option.toList_none, List.append_nil]
    case idle => exact inv_move hs (by rw [hth]; rfl) (by rw [hth]; rfl) rfl rfl trivial
    all_goals exact hs
  | step t spurious =>
    have hok := hs.thread t
    have hlog : ∀ e : Event α, e.pushed = none → e.popped = none →
        pushes (log ++ [e]) = pushes log ∧ pops (log ++ [e]) = pops log := fun e h1 h2 =>
      ⟨by simp [pushes_singleton, h1], by simp [pops_singleton, h2]⟩
    cases hth : s.threads t <;> rw [hth] at hok <;>
      simp only [step, hth, Option.toList_none, Option.toList_some, List.append_nil]
    case idle => exact hs
    case pushLoad x => exact inv_move hs (by rw [hth]; rfl) (by rw [hth]; rfl) rfl rfl le_rfl
    case pushSeq x pos =>
      split_ifs with h1 h2 <;> simp only [Option.toList_none, Option.toList_some, List.append_nil]
      · exact inv_move hs (by rw [hth]; rfl) (by rw [hth]; rfl) rfl rfl ⟨hok, fun _ => h1⟩
      · have := hlog (.pushFull t x) rfl rfl
        exact inv_move hs (by rw [hth]; rfl) (by rw [hth]; rfl) this.1 this.2 trivial
      · exact inv_move hs (by rw [hth]; rfl) (by rw [hth]; rfl) rfl rfl trivial
    case pushCas x pos =>
      split_ifs with h <;> simp only [Option.toList_none, List.append_nil]
      · obtain ⟨rfl, -⟩ := h
        exact inv_pushClaim hk hs hth
      · exact inv_move hs (by rw [hth]; rfl) (by rw [hth]; rfl) rfl rfl trivial
    case pushWrite x pos => exact inv_pushWrite hs hth
    case pushPublish x pos => exact inv_pushPublish hk hs hth
    case popLoad => exact inv_move hs (by rw [hth]; rfl) (by rw [hth]; rfl) rfl rfl le_rfl
    case popSeq pos =>
      split_ifs with h1 h2 <;> simp only [Option.toList_none, Option.toList_some, List.append_nil]
      · exact inv_move hs (by rw [hth]; rfl) (by rw [hth]; rfl) rfl rfl ⟨hok, fun _ => h1⟩
      · have := hlog (.popEmpty t) rfl rfl
        exact inv_move hs (by rw [hth]; rfl) (by rw [hth]; rfl) this.1 this.2 trivial
      · exact inv_move hs (by rw [hth]; rfl) (by rw [hth]; rfl) rfl rfl trivial
    case popCas pos =>
      split_ifs with h <;> simp only [Option.toList_none, List.append_nil]
      · obtain ⟨rfl, -⟩ := h
        exact inv_popClaim hk hs hth
      · exact inv_move hs (by rw [hth]; rfl) (by rw [hth]; rfl) rfl rfl trivial
    case popRead pos => exact inv_move hs (by rw [hth]; rfl) (by rw [hth]; rfl) rfl rfl hok
    case popRelease x pos => exact inv_popRelease hk hs hth

/-- **A whole run keeps `Inv`**, with its completed operations appended to the log. -/
theorem run_inv (hk : 1 ≤ k) (acts : List (Act α)) (hs : Inv k s log) :
    Inv k (run k s acts).1 (log ++ (run k s acts).2) := by
  induction acts generalizing s log with
  | nil => simpa [run] using hs
  | cons a as ih => simpa [run, List.append_assoc] using ih (step_inv hk hs a)

/-! ## What the invariant gives -/

/-- No operation is in progress. -/
def Quiescent (s : State α) : Prop := ∀ t, s.threads t = .idle

/-- The queued positions `[head, tail)`, oldest first, with the items their slots hold. -/
def queued (k : Nat) (s : State α) : List (Nat × α) :=
  (List.range (s.tail - s.head)).map fun i => (s.head + i, s.data (slot k (s.head + i)))

/-- The queued items, oldest first. -/
def contents (k : Nat) (s : State α) : List α := (queued k s).map Prod.snd

theorem mem_queued {e : Nat × α} :
    e ∈ queued k s ↔ s.head ≤ e.1 ∧ e.1 < s.tail ∧ e.2 = s.data (slot k e.1) := by
  simp only [queued, List.mem_map, List.mem_range]
  constructor
  · rintro ⟨i, hi, rfl⟩
    exact ⟨Nat.le_add_right _ _, by omega, rfl⟩
  · rintro ⟨h1, h2, h3⟩
    exact ⟨e.1 - s.head, by omega, by rw [Nat.add_sub_cancel' h1, ← h3]⟩

theorem not_claim_of_quiescent (hq : Quiescent s) {f : Thread α → Option Nat} (hf : f .idle = none)
    (p : Nat) : ¬ Claim f s.threads p := fun ⟨t, h⟩ => by
  rw [hq t, hf] at h
  cases h

/-- Every position behind `head` has a slot whose sequence is past it: the slot's current
    position, in `[head, head + Size)`, is at least `Size` further on. -/
theorem Inv.lt_sequence (hk : 1 ≤ k) (hs : Inv k s log) {p : Nat} (hp : p < s.head) :
    p < s.sequence (slot k p) := by
  have hS := two_le_size k hk
  -- `q` is the position of `p`'s slot in the window `[head, head + Size)`
  have hd := Nat.div_add_mod (s.head - 1 - p) (2 ^ k)
  have hm := Nat.mod_lt (s.head - 1 - p) (show 0 < 2 ^ k by omega)
  set q := p + 2 ^ k * ((s.head - 1 - p) / 2 ^ k) + 2 ^ k with hq
  have hslot : slot k q = slot k p := by
    rw [hq, slot_add_size, slot_eq, slot_eq, Nat.add_mul_mod_self_left]
  have h1 : s.head ≤ q := by omega
  have h2 : q < s.head + 2 ^ k := by omega
  rw [← hslot]
  rcases Nat.lt_or_ge q s.tail with h3 | h3
  · rcases hs.claimed q h1 h3 with h | h
    · omega
    · have := (hs.pushing q h).2.2
      omega
  · rcases hs.free q h3 h2 with h | ⟨r, hr, e⟩
    · omega
    · have h4 := (hs.popping r hr).2.2
      rw [← e, slot_add_size, h4]
      omega

/-- Every position behind `tail` has a slot whose sequence has reached it. -/
theorem Inv.le_sequence (hk : 1 ≤ k) (hs : Inv k s log) {p : Nat} (hp : p < s.tail) :
    p ≤ s.sequence (slot k p) := by
  rcases Nat.lt_or_ge p s.head with h | h
  · exact (hs.lt_sequence hk h).le
  · rcases hs.claimed p h hp with h' | h'
    · omega
    · exact (hs.pushing p h').2.2.ge

/-- A step that makes a pop return `false` is a sequence load that found the slot behind. -/
theorem step_popEmpty {b : Bool} (h : (step k s (.step t b)).2 = some (.popEmpty t)) :
    ∃ pos, s.threads t = .popSeq pos ∧ s.sequence (slot k pos) < pos + 1 := by
  cases hth : s.threads t <;> simp only [step, hth] at h
  case popSeq pos =>
    split_ifs at h with h1 h2
    exact ⟨pos, rfl, h2⟩
  all_goals (try split_ifs at h) <;> simp at h

/-- A step that makes a push return `false` is a sequence load that found the slot behind. -/
theorem step_pushFull {b : Bool} {x : α} (h : (step k s (.step t b)).2 = some (.pushFull t x)) :
    ∃ pos, s.threads t = .pushSeq x pos ∧ s.sequence (slot k pos) < pos := by
  cases hth : s.threads t <;> simp only [step, hth] at h
  case pushSeq y pos =>
    split_ifs at h with h1 h2
    simp only [Option.some.injEq, Event.pushFull.injEq, true_and] at h
    exact ⟨pos, h ▸ rfl, h2⟩
  all_goals (try split_ifs at h) <;> simp at h

theorem step_popSeq {b : Bool} {pos : Nat} (hth : s.threads t = .popSeq pos) :
    (step k s (.step t b)).2 = if s.sequence (slot k pos) = pos + 1 then none
      else if s.sequence (slot k pos) < pos + 1 then some (.popEmpty t) else none := by
  simp only [step, hth]
  split_ifs <;> rfl

theorem step_pushSeq {b : Bool} {x : α} {pos : Nat} (hth : s.threads t = .pushSeq x pos) :
    (step k s (.step t b)).2 = if s.sequence (slot k pos) = pos then none
      else if s.sequence (slot k pos) < pos then some (.pushFull t x) else none := by
  simp only [step, hth]
  split_ifs <;> rfl

/-- A push about to write a slot comes after the pops of every earlier position of that slot. -/
theorem Inv.slot_reused (hk : 1 ≤ k) (hs : Inv k s log) {x : α} {p : Nat}
    (ht : s.threads t = .pushWrite x p) {q : Nat} (hq : q < p) (hslot : slot k q = slot k p) :
    q ∈ (pops log).map Prod.fst := by
  obtain ⟨hp1, hp2, hp3⟩ := hs.pushing p ⟨t, by rw [ht]; rfl⟩
  have htl := hs.tail_le
  have hqh : q < s.head := by
    by_contra h
    exact absurd (eq_of_slot_eq k (a := s.head) (by omega) (by omega) hp1 (by omega) hslot)
      (by omega)
  refine (hs.popped q).2 ⟨hqh, fun hc => slot_succ_ne k hk q ?_⟩
  have := (hs.popping q hc).2.2
  rw [hslot, hp3] at this
  rw [← this]
  exact hslot.symm

/-- **Conservation at quiescence**: the completed pushes are the completed pops plus the queue. -/
theorem Inv.perm_of_quiescent (hs : Inv k s log) (hq : Quiescent s) :
    (pushes log).Perm (pops log ++ queued k s) := by
  have hnpush := not_claim_of_quiescent hq (f := Thread.pushPos) rfl
  have hnpop := not_claim_of_quiescent hq (f := Thread.popPos) rfl
  have hinj := List.inj_on_of_nodup_map hs.pushed_nodup
  have hqnodup : ((queued k s).map Prod.fst).Nodup := by
    simp only [queued, List.map_map, Function.comp_def]
    exact (List.nodup_range _).map fun _ _ h => Nat.add_left_cancel h
  have hdisj : ((pops log).map Prod.fst).Disjoint ((queued k s).map Prod.fst) := fun p h1 h2 => by
    have := ((hs.popped p).1 h1).1
    obtain ⟨e, he, rfl⟩ := List.mem_map.mp h2
    have := (mem_queued.1 he).1
    omega
  refine (List.perm_ext_iff_of_nodup (hs.pushed_nodup.of_map _) (List.Nodup.of_map Prod.fst
    (by rw [List.map_append]; exact hs.popped_nodup.append hqnodup hdisj))).2 fun e => ?_
  rw [List.mem_append, mem_queued]
  constructor
  · intro he
    have h1 := (hs.pushed e.1).1 (List.mem_map_of_mem _ he)
    rcases Nat.lt_or_ge e.1 s.head with hlt | hge
    · obtain ⟨e', he', hfst⟩ := List.mem_map.mp ((hs.popped e.1).2 ⟨hlt, hnpop _⟩)
      rw [hinj he (hs.popped_sub e' he') hfst.symm]
      exact .inl he'
    · exact .inr ⟨hge, h1.1, (hs.data e he hge).symm⟩
  · rintro (he | ⟨h1, h2, h3⟩)
    · exact hs.popped_sub e he
    · obtain ⟨e', he', hfst⟩ := List.mem_map.mp ((hs.pushed e.1).2 ⟨h2, hnpush _⟩)
      have hval := hs.data e' he' (hfst ▸ h1)
      rw [hfst, ← h3] at hval
      rwa [← Prod.ext hfst hval.symm]

/-- **Exactly-once transfer.** In every run from the constructor, with `Size = 2^k ≥ 2` and any
    number of threads: each position is claimed by at most one successful push and at most one
    successful pop; every pop returns the value pushed at its position; a push writes a slot only
    after the pops of all earlier positions of that slot have completed, and a pop reads a slot
    only after the push of its position has completed, while the slot holds that push's value;
    and once every thread is idle, the pushed values are the popped values plus the queued
    items, as multisets. -/
theorem mpmc_exactly_once (hk : 1 ≤ k) (buf : Nat → α) (acts : List (Act α)) :
    let r := run k (init buf) acts
    ((pushes r.2).map Prod.fst).Nodup ∧ ((pops r.2).map Prod.fst).Nodup ∧
      (∀ e ∈ pops r.2, e ∈ pushes r.2) ∧
      (∀ t x p, r.1.threads t = .pushWrite x p →
        ∀ q < p, slot k q = slot k p → q ∈ (pops r.2).map Prod.fst) ∧
      (∀ t p, r.1.threads t = .popRead p → (p, r.1.data (slot k p)) ∈ pushes r.2) ∧
      (Quiescent r.1 →
        ((pushes r.2).map Prod.snd).Perm ((pops r.2).map Prod.snd ++ contents k r.1)) := by
  intro r
  have hs : Inv k r.1 r.2 := by simpa using run_inv hk acts (inv_init buf)
  refine ⟨hs.pushed_nodup, hs.popped_nodup, hs.popped_sub,
    fun t x p ht q hq hslot => hs.slot_reused hk ht hq hslot, fun t p ht => ?_, fun hq => ?_⟩
  · have := hs.thread t
    rwa [ht] at this
  · have := (hs.perm_of_quiescent hq).map Prod.snd
    rwa [List.map_append] at this

theorem mpmc_exactly_once_twoThreads : 1 ≤ 1 ∧
    let r := run 1 (init fun _ => (0 : Nat)) [.push 0 10, .step 0 false, .pop 1, .step 1 false]
    ((pushes r.2).map Prod.fst).Nodup ∧ ((pops r.2).map Prod.fst).Nodup ∧
      (∀ e ∈ pops r.2, e ∈ pushes r.2) ∧
      (∀ t x p, r.1.threads t = .pushWrite x p →
        ∀ q < p, slot 1 q = slot 1 p → q ∈ (pops r.2).map Prod.fst) ∧
      (∀ t p, r.1.threads t = .popRead p → (p, r.1.data (slot 1 p)) ∈ pushes r.2) ∧
      (Quiescent r.1 →
        ((pushes r.2).map Prod.snd).Perm ((pops r.2).map Prod.snd ++ contents 1 r.1)) :=
  ⟨le_rfl, mpmc_exactly_once le_rfl _ _⟩

/-! ## When `pop` reports empty and `push` full -/

/-- A pop that returns `false` was at the sequence load of position `head`, and `head` was not
    published: nothing is queued, or the push holding `head` has not stored its sequence. -/
theorem Inv.popEmpty_at_head (hk : 1 ≤ k) (hs : Inv k s log) {b : Bool}
    (h : (step k s (.step t b)).2 = some (.popEmpty t)) :
    s.threads t = .popSeq s.head ∧ (s.head = s.tail ∨ Claim Thread.pushPos s.threads s.head) := by
  obtain ⟨pos, hth, hlt⟩ := step_popEmpty h
  have hle : pos ≤ s.head := by
    have := hs.thread t
    rwa [hth] at this
  obtain rfl : pos = s.head := by
    by_contra hne
    have := hs.lt_sequence hk (lt_of_le_of_ne hle hne)
    omega
  refine ⟨hth, ?_⟩
  rcases hs.head_le.lt_or_eq with h' | h'
  · exact .inr ((hs.claimed _ le_rfl h').resolve_left (by omega))
  · exact .inl h'

/-- A push that returns `false` was at the sequence load of position `tail`, and the slot of
    `tail` was not free: `Size` items are queued, or the pop holding `tail - Size` has not stored
    its sequence. -/
theorem Inv.pushFull_at_tail (hk : 1 ≤ k) (hs : Inv k s log) {b : Bool} {x : α}
    (h : (step k s (.step t b)).2 = some (.pushFull t x)) :
    s.threads t = .pushSeq x s.tail ∧
      (s.tail = s.head + 2 ^ k ∨ ∃ q, Claim Thread.popPos s.threads q ∧ q + 2 ^ k = s.tail) := by
  obtain ⟨pos, hth, hlt⟩ := step_pushFull h
  have hle : pos ≤ s.tail := by
    have := hs.thread t
    rwa [hth] at this
  obtain rfl : pos = s.tail := by
    by_contra hne
    have := hs.le_sequence hk (lt_of_le_of_ne hle hne)
    omega
  refine ⟨hth, ?_⟩
  rcases hs.tail_le.lt_or_eq with h' | h'
  · exact .inr ((hs.free _ le_rfl h').resolve_left (by omega))
  · exact .inl h'

/-- With every other thread idle, no thread holds a position. -/
theorem not_claim_of_solo {f : Thread α → Option Nat} (hidle : ∀ t', t' ≠ t → s.threads t' = .idle)
    (hf : f .idle = none) (ht : f (s.threads t) = none) (p : Nat) : ¬ Claim f s.threads p :=
  fun ⟨t', h⟩ => by
    rcases eq_or_ne t' t with rfl | hne
    · rw [ht] at h
      cases h
    · rw [hidle t' hne, hf] at h
      cases h

/-- **A spurious "empty".** With two slots: producer 0 claims position 0 and stalls before
    storing its sequence; producer 1 then pushes at position 1 and returns `true`; a pop invoked
    afterwards by thread 2, with no other pop running, loads `head = 0`, finds `sequence = 0`
    and returns `false` while an item is queued. -/
theorem pop_empty_while_queued :
    (run 1 (init fun _ => (0 : Nat))
      [.push 0 10, .step 0 false, .step 0 false, .step 0 false,
       .push 1 11, .step 1 false, .step 1 false, .step 1 false, .step 1 false, .step 1 false,
       .pop 2, .step 2 false, .step 2 false]).2 = [.push 1 1 11, .popEmpty 2] := by
  decide

/-- **When `pop` reports empty and `push` full.** In every run from the constructor
    (`Size = 2^k ≥ 2`, any threads): if thread `t`'s next step makes its `pop` return `false`, it
    is at the sequence load of position `head`, and nothing is queued or the push holding `head`
    has not stored its sequence; if it makes its `push` return `false`, it is at the sequence load
    of position `tail`, and `Size` items are queued or the pop holding `tail - Size` has not stored
    its sequence. When no other operation is in progress, the sequence load of `head` returns
    `false` exactly when nothing is queued, and that of `tail` exactly when `Size` items are. -/
theorem mpmc_empty_full_exact (hk : 1 ≤ k) (buf : Nat → α) (acts : List (Act α)) (t : Nat)
    (spurious : Bool) :
    let s := (run k (init buf) acts).1
    let r := (step k s (.step t spurious)).2
    (r = some (.popEmpty t) →
      s.threads t = .popSeq s.head ∧ (s.head = s.tail ∨ Claim Thread.pushPos s.threads s.head)) ∧
    (∀ x, r = some (.pushFull t x) → s.threads t = .pushSeq x s.tail ∧
      (s.tail = s.head + 2 ^ k ∨ ∃ q, Claim Thread.popPos s.threads q ∧ q + 2 ^ k = s.tail)) ∧
    ((∀ t', t' ≠ t → s.threads t' = .idle) →
      (s.threads t = .popSeq s.head → (r = some (.popEmpty t) ↔ s.head = s.tail)) ∧
      (∀ x, s.threads t = .pushSeq x s.tail →
        (r = some (.pushFull t x) ↔ s.tail = s.head + 2 ^ k))) := by
  intro s r
  have hs : Inv k s (run k (init buf) acts).2 := by simpa using run_inv hk acts (inv_init buf)
  have hS := two_le_size k hk
  refine ⟨hs.popEmpty_at_head hk, fun x => hs.pushFull_at_tail hk, fun hidle => ⟨fun hth => ?_,
    fun x hth => ?_⟩⟩
  · have hnpush := not_claim_of_solo hidle (f := Thread.pushPos) rfl (by rw [hth]; rfl)
    have hnpop := not_claim_of_solo hidle (f := Thread.popPos) rfl (by rw [hth]; rfl)
    refine ⟨fun h => (hs.popEmpty_at_head hk h).2.resolve_right (hnpush _), fun h => ?_⟩
    have hseq : s.sequence (slot k s.head) = s.head :=
      (hs.free _ h.ge (by omega)).resolve_right fun ⟨q, hq, _⟩ => hnpop q hq
    show (step k s (.step t spurious)).2 = _
    rw [step_popSeq hth, if_neg (by omega), if_pos (by omega)]
  · have hnpush := not_claim_of_solo hidle (f := Thread.pushPos) rfl (by rw [hth]; rfl)
    refine ⟨fun h => (hs.pushFull_at_tail hk h).2.resolve_right fun ⟨q, hq, _⟩ => ?_, fun h => ?_⟩
    · exact not_claim_of_solo hidle (f := Thread.popPos) rfl (by rw [hth]; rfl) q hq
    · have hseq : s.sequence (slot k s.head) = s.head + 1 :=
        (hs.claimed _ le_rfl (by omega)).resolve_right (hnpush _)
      rw [h] at hth
      show (step k s (.step t spurious)).2 = _
      rw [step_pushSeq hth, slot_add_size, hseq, if_neg (by omega), if_pos (by omega)]

theorem mpmc_empty_full_exact_solo : 1 ≤ 1 ∧
    let s := (run 1 (init fun _ => (0 : Nat)) [.pop 0, .step 0 false]).1
    let r := (step 1 s (.step 0 false)).2
    (r = some (.popEmpty 0) →
      s.threads 0 = .popSeq s.head ∧ (s.head = s.tail ∨ Claim Thread.pushPos s.threads s.head)) ∧
    (∀ x, r = some (.pushFull 0 x) → s.threads 0 = .pushSeq x s.tail ∧
      (s.tail = s.head + 2 ^ 1 ∨ ∃ q, Claim Thread.popPos s.threads q ∧ q + 2 ^ 1 = s.tail)) ∧
    ((∀ t', t' ≠ 0 → s.threads t' = .idle) →
      (s.threads 0 = .popSeq s.head → (r = some (.popEmpty 0) ↔ s.head = s.tail)) ∧
      (∀ x, s.threads 0 = .pushSeq x s.tail →
        (r = some (.pushFull 0 x) ↔ s.tail = s.head + 2 ^ 1))) :=
  ⟨le_rfl, mpmc_empty_full_exact le_rfl _ _ _ _⟩

end MPMCRingBuffer

end L4lb
