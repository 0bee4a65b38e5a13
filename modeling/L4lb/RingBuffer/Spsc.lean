import L4lb.RingBuffer.Spec

/-!
# `L4lb.RingBuffer.Spsc` — `SPSCRingBuffer<T, Size>` under every interleaving

`Size = 2^k` slots (`k ≥ 1`, the two `static_assert`s), indices `head_` and `tail_` in `[0, Size)`,
and a buffer. The producer runs `push` (both overloads take the same atomic steps) and the
consumer runs `pop` or `peek`; each shared access is one step, local computation rides along with
the access before it:

* `push`: load `tail_` (at invocation) · load `head_` and compare (`false` if full) · write
  `buffer_[tail]` · store `tail_` and return `true`;
* `pop`: load `head_` (at invocation) · load `tail_` and compare (`false` if empty) · read
  `buffer_[head]` · store `head_` and return the item; `peek` returns after the read.

A scheduler picks which thread steps next (`Act`); a run yields the completed operations in
completion order. Under sequential consistency this covers every interleaving.

The header as shipped does not compile: `head_` and `tail_` are
`CacheLineAligned<std::atomic<size_t>>`, which has no `load`, `store` or `compare_exchange_weak`
of its own, and `head_(0)` would copy-construct the `std::atomic` it wraps (a deleted
constructor). The model reads `head_` and `tail_` as the atomics the wrappers hold,
starting at `0`, which is what the calls on them evidently mean.

## Contents
- The abstraction: the queue is the `count = (tail - head) mod Size` slots from `head`.
- `Inv`: what each thread's locals say about the shared state (its own index is current, a
  passed fullness or emptiness check still holds, an item written or read is still in its slot).
- `step_inv`: every step keeps `Inv` and either leaves the queue alone or performs exactly the
  sequential operation it completes. Each operation takes effect at its last step.
- **Linearizability** (`spsc_linearizable`): the completed operations of every run are a legal
  history of the bounded queue of capacity `Size - 1` ending in the current queue; so popped
  values are a prefix of pushed ones, and `size`/`empty`/`full` report the queue exactly.
-/

namespace L4lb

namespace SPSCRingBuffer

variable {α : Type} (k : Nat)

/-- `(i + 1) & (Size - 1)`: the slot after `i`. -/
def next (i : Nat) : Nat := (i + 1) &&& (2 ^ k - 1)

/-- Where the producer is inside `push`. -/
inductive Producer (α : Type)
  | idle
  /-- `current_tail` loaded; the head check is next. -/
  | loaded (x : α) (t : Nat)
  /-- Not full; `buffer_[current_tail] = item` is next. -/
  | writing (x : α) (t : Nat)
  /-- Item written; `tail_.store(next_tail, release)` is next. -/
  | publishing (x : α) (t : Nat)

/-- Where the consumer is inside `pop` (`peek = false`) or `peek` (`peek = true`). -/
inductive Consumer (α : Type)
  | idle
  /-- `current_head` loaded; the tail check is next. -/
  | loaded (peek : Bool) (h : Nat)
  /-- Not empty; the read of `buffer_[current_head]` is next. -/
  | reading (peek : Bool) (h : Nat)
  /-- `pop` has read `x`; `head_.store(next_head, release)` is next. -/
  | releasing (x : α) (h : Nat)

/-- The shared state and both threads' positions. -/
structure State (α : Type) where
  head : Nat
  tail : Nat
  buffer : Nat → α
  producer : Producer α
  consumer : Consumer α

/-- The constructor: `head_ = tail_ = 0`, `buffer_` holding `buf`. -/
def init (buf : Nat → α) : State α := ⟨0, 0, buf, .idle, .idle⟩

/-- A scheduling decision. -/
inductive Act (α : Type)
  | push (x : α)
  | pop
  | peek
  | producer
  | consumer

/-- One step; a disabled action (invoking while busy, stepping while idle) changes nothing. -/
def step (s : State α) : Act α → State α × Option (Ret α)
  | .push x =>
    match s.producer with
    | .idle => ({ s with producer := .loaded x s.tail }, none)
    | _ => (s, none)
  | .pop =>
    match s.consumer with
    | .idle => ({ s with consumer := .loaded false s.head }, none)
    | _ => (s, none)
  | .peek =>
    match s.consumer with
    | .idle => ({ s with consumer := .loaded true s.head }, none)
    | _ => (s, none)
  | .producer =>
    match s.producer with
    | .idle => (s, none)
    | .loaded x t =>
      if next k t = s.head then ({ s with producer := .idle }, some (.push x false))
      else ({ s with producer := .writing x t }, none)
    | .writing x t => ({ s with buffer := Function.update s.buffer t x, producer := .publishing x t }, none)
    | .publishing x t => ({ s with tail := next k t, producer := .idle }, some (.push x true))
  | .consumer =>
    match s.consumer with
    | .idle => (s, none)
    | .loaded p h =>
      if h = s.tail then ({ s with consumer := .idle }, some (if p then .peek none else .pop none))
      else ({ s with consumer := .reading p h }, none)
    | .reading p h =>
      if p then ({ s with consumer := .idle }, some (.peek (some (s.buffer h))))
      else ({ s with consumer := .releasing (s.buffer h) h }, none)
    | .releasing x h => ({ s with head := next k h, consumer := .idle }, some (.pop (some x)))

/-- Run a schedule, collecting the completed operations in completion order. -/
def run (s : State α) : List (Act α) → State α × List (Ret α)
  | [] => (s, [])
  | a :: as =>
    let r := step k s a
    let r' := run r.1 as
    (r'.1, r.2.toList ++ r'.2)

/-- `size()`: `(tail - head + Size) & (Size - 1)`; the `size_t` wrap of `tail - head` cancels
    against `+ Size` because both indices are below `Size`. -/
def size (s : State α) : Nat := (s.tail + 2 ^ k - s.head) &&& (2 ^ k - 1)

/-- `empty()`. -/
def empty (s : State α) : Bool := s.head == s.tail

/-- `full()`. -/
def full (s : State α) : Bool := next k s.tail == s.head

/-! ## The abstract queue -/

/-- The `c` slots of `buf` from `h` on, around a ring of `S` slots. -/
def window (S : Nat) (buf : Nat → α) (h c : Nat) : List α :=
  (List.range c).map fun i => buf ((h + i) % S)

/-- The number of queued items. -/
def count (s : State α) : Nat := (s.tail + 2 ^ k - s.head) % 2 ^ k

/-- The queue the state represents. -/
def contents (s : State α) : List α := window (2 ^ k) s.buffer s.head (count k s)

/-! ## Index arithmetic on a ring of `S` slots -/

section Arith

variable {S h t i : Nat}

theorem mod_succ_eq (ht : t < S) : (t + 1) % S = if t + 1 = S then 0 else t + 1 := by
  split
  · rename_i heq; rw [heq, Nat.mod_self]
  · exact Nat.mod_eq_of_lt (by omega)

theorem sub_mod_eq (hh : h < S) (ht : t < S) :
    (t + S - h) % S = if h ≤ t then t - h else t + S - h := by
  split
  · rw [show t + S - h = t - h + S by omega, Nat.add_mod_right, Nat.mod_eq_of_lt (by omega)]
  · exact Nat.mod_eq_of_lt (by omega)

theorem add_mod_eq (hh : h < S) (hi : i < S) :
    (h + i) % S = if h + i < S then h + i else h + i - S := by
  split
  · exact Nat.mod_eq_of_lt ‹_›
  · rw [Nat.mod_eq_sub_mod (by omega), Nat.mod_eq_of_lt (by omega)]

/-- Advancing `tail` by one slot adds one item. -/
theorem count_succ_tail (hh : h < S) (ht : t < S) (hc : (t + S - h) % S + 1 < S) :
    ((t + 1) % S + S - h) % S = (t + S - h) % S + 1 := by
  have h1 := sub_mod_eq hh ht
  rw [mod_succ_eq ht] at *
  split_ifs at * <;> rw [sub_mod_eq hh (by omega)] <;> split_ifs <;> omega

/-- Advancing `head` by one slot removes one item. -/
theorem count_succ_head (hh : h < S) (ht : t < S) (hne : h ≠ t) :
    (t + S - (h + 1) % S) % S = (t + S - h) % S - 1 := by
  have h1 := sub_mod_eq hh ht
  rw [mod_succ_eq hh]
  split_ifs at * <;> rw [sub_mod_eq (by omega) ht] <;> split_ifs <;> omega

/-- The slot after the last item is `tail`. -/
theorem add_count (hh : h < S) (ht : t < S) : (h + (t + S - h) % S) % S = t := by
  have h1 := sub_mod_eq hh ht
  have h2 : (t + S - h) % S < S := Nat.mod_lt _ (by omega)
  rw [add_mod_eq hh h2]
  split_ifs at * <;> omega

end Arith

theorem next_eq (i : Nat) : next k i = (i + 1) % 2 ^ k := Nat.and_pow_two_sub_one_eq_mod _ _

section Window

variable {S : Nat} {buf : Nat → α} {h c p : Nat} {x : α}

theorem window_length : (window S buf h c).length = c := by simp [window]

theorem window_succ (S : Nat) (buf : Nat → α) (h c : Nat) :
    window S buf h (c + 1) = window S buf h c ++ [buf ((h + c) % S)] := by
  simp [window, List.range_succ]

theorem window_succ' (S : Nat) (buf : Nat → α) (h c : Nat) :
    window S buf h (c + 1) = buf (h % S) :: window S buf ((h + 1) % S) c := by
  simp only [window, List.range_succ_eq_map, List.map_cons, List.map_map, Nat.add_zero]
  congr 1
  refine List.map_congr_left fun i _ => ?_
  simp only [Function.comp, Nat.mod_add_mod, Nat.succ_eq_add_one]
  congr 2
  omega

theorem window_update (hp : ∀ i < c, (h + i) % S ≠ p) :
    window S (Function.update buf p x) h c = window S buf h c :=
  List.map_congr_left fun i hi => Function.update_noteq (hp i (List.mem_range.mp hi)) _ _

end Window

/-! ## The invariant -/

/-- What the producer's position says: its `current_tail` is `tail_`, a passed fullness check
    still holds (only the producer fills the queue), and a written item is still in its slot. -/
def ProducerOk (s : State α) : Producer α → Prop
  | .idle => True
  | .loaded _ t => t = s.tail
  | .writing _ t => t = s.tail ∧ count k s + 1 < 2 ^ k
  | .publishing x t => t = s.tail ∧ count k s + 1 < 2 ^ k ∧ s.buffer t = x

/-- What the consumer's position says: its `current_head` is `head_`, a passed emptiness check
    still holds (only the consumer drains the queue), and an item read is still in its slot. -/
def ConsumerOk (s : State α) : Consumer α → Prop
  | .idle => True
  | .loaded _ h => h = s.head
  | .reading _ h => h = s.head ∧ 0 < count k s
  | .releasing x h => h = s.head ∧ 0 < count k s ∧ s.buffer h = x

/-- The invariant of every reachable state. -/
structure Inv (s : State α) : Prop where
  head_lt : s.head < 2 ^ k
  tail_lt : s.tail < 2 ^ k
  producer : ProducerOk k s s.producer
  consumer : ConsumerOk k s s.consumer

/-- The abstract effect of a step: none, or one legal operation of capacity `cap`. -/
def Tracks (cap : Nat) (q : List α) : Option (Ret α) → List α → Prop
  | none, q' => q' = q
  | some r, q' => Legal cap q r q'

variable {k} {s : State α}

theorem inv_init (buf : Nat → α) : Inv k (init buf) :=
  ⟨Nat.two_pow_pos k, Nat.two_pow_pos k, trivial, trivial⟩

theorem count_eq (hs : Inv k s) :
    count k s = if s.head ≤ s.tail then s.tail - s.head else s.tail + 2 ^ k - s.head :=
  sub_mod_eq hs.head_lt hs.tail_lt

theorem contents_length : (contents k s).length = count k s := window_length

theorem count_lt : count k s < 2 ^ k := Nat.mod_lt _ (Nat.two_pow_pos k)

theorem count_pos (hs : Inv k s) : 0 < count k s ↔ s.head ≠ s.tail := by
  have := count_eq hs
  have := hs.head_lt
  have := hs.tail_lt
  split_ifs at * <;> omega

/-- The item slots are those from `head` up to, not including, `tail`. -/
theorem slot_ne_tail (hs : Inv k s) {i : Nat} (hi : i < count k s) :
    (s.head + i) % 2 ^ k ≠ s.tail := by
  have := count_eq hs
  have := hs.tail_lt
  have : count k s < 2 ^ k := count_lt
  rw [add_mod_eq hs.head_lt (by omega)]
  split_ifs at * <;> omega

/-- A consumer position stays justified when `head` is kept, a nonempty queue stays nonempty
    and the head slot is kept. -/
theorem consumerOk_mono {s s' : State α} {c : Consumer α} (hc : ConsumerOk k s c)
    (hhead : s'.head = s.head) (hcount : 0 < count k s → 0 < count k s')
    (hbuf : 0 < count k s → s'.buffer s.head = s.buffer s.head) : ConsumerOk k s' c := by
  cases c with
  | idle => trivial
  | loaded p h => exact hc.trans hhead.symm
  | reading p h => exact ⟨hc.1.trans hhead.symm, hcount hc.2⟩
  | releasing x h =>
    obtain ⟨rfl, h2, h3⟩ := hc
    exact ⟨hhead.symm, hcount h2, (hbuf h2).trans h3⟩

/-- A producer position stays justified when `tail` and its slot are kept and the queue does
    not grow. -/
theorem producerOk_mono {s s' : State α} {p : Producer α} (hp : ProducerOk k s p)
    (htail : s'.tail = s.tail) (hcount : count k s' ≤ count k s)
    (hbuf : s'.buffer s.tail = s.buffer s.tail) : ProducerOk k s' p := by
  cases p with
  | idle => trivial
  | loaded x t => exact hp.trans htail.symm
  | writing x t => exact ⟨hp.1.trans htail.symm, (Nat.succ_le_succ hcount).trans_lt hp.2⟩
  | publishing x t =>
    obtain ⟨rfl, h2, h3⟩ := hp
    exact ⟨htail.symm, (Nat.succ_le_succ hcount).trans_lt h2, hbuf.trans h3⟩

/-! ## The queue across one step -/

/-- Storing `next_tail` appends the item in the `tail` slot. -/
theorem contents_push (hs : Inv k s) (hlt : count k s + 1 < 2 ^ k) (s' : State α)
    (hh : s'.head = s.head) (ht : s'.tail = next k s.tail) (hb : s'.buffer = s.buffer) :
    count k s' = count k s + 1 ∧ contents k s' = contents k s ++ [s.buffer s.tail] := by
  have hc : count k s' = count k s + 1 := by
    simp only [count, hh, ht, next_eq]
    exact count_succ_tail hs.head_lt hs.tail_lt hlt
  refine ⟨hc, ?_⟩
  simp only [contents, hc, hh, hb, window_succ]
  rw [show (s.head + count k s) % 2 ^ k = s.tail from add_count hs.head_lt hs.tail_lt]

/-- Storing `next_head` removes the item in the `head` slot. -/
theorem contents_pop (hs : Inv k s) (hpos : 0 < count k s) (s' : State α)
    (hh : s'.head = next k s.head) (ht : s'.tail = s.tail) (hb : s'.buffer = s.buffer) :
    count k s' = count k s - 1 ∧ contents k s = s.buffer s.head :: contents k s' := by
  have hc : count k s' = count k s - 1 := by
    simp only [count, hh, ht, next_eq]
    exact count_succ_head hs.head_lt hs.tail_lt ((count_pos hs).mp hpos)
  refine ⟨hc, ?_⟩
  obtain ⟨c, hcs⟩ : ∃ c, count k s = c + 1 := ⟨count k s - 1, by omega⟩
  simp only [contents, hc, hh, hb, next_eq, hcs, Nat.add_sub_cancel]
  rw [window_succ', Nat.mod_eq_of_lt hs.head_lt]

/-- **The producer's step** (`head_` check, slot write, `tail_` store). -/
theorem step_producer (hs : Inv k s) :
    Inv k (step k s .producer).1 ∧
      Tracks (2 ^ k - 1) (contents k s) (step k s .producer).2 (contents k (step k s .producer).1) := by
  have hh := hs.head_lt
  have ht := hs.tail_lt
  have hprod := hs.producer
  rcases hp : s.producer with _ | ⟨x, t⟩ | ⟨x, t⟩ | ⟨x, t⟩ <;> rw [hp] at hprod
  · simp only [step, hp]
    exact ⟨hs, rfl⟩
  · obtain rfl : t = s.tail := hprod
    have hc := count_eq hs
    have hn := next_eq k s.tail
    rw [mod_succ_eq ht] at hn
    by_cases hfull : next k s.tail = s.head
    · simp only [step, hp, if_pos hfull, Tracks]
      refine ⟨⟨hh, ht, trivial, hs.consumer⟩, .pushFull x _ ?_⟩
      rw [contents_length]
      split_ifs at hn hc <;> omega
    · simp only [step, hp, if_neg hfull, Tracks]
      refine ⟨⟨hh, ht, ⟨rfl, ?_⟩, hs.consumer⟩, rfl⟩
      show count k s + 1 < 2 ^ k
      split_ifs at hn hc <;> omega
  · obtain ⟨rfl, hlt⟩ := hprod
    simp only [step, hp, Tracks]
    refine ⟨⟨hh, ht, ⟨rfl, hlt, Function.update_same _ _ _⟩,
      consumerOk_mono hs.consumer rfl id fun hpos => ?_⟩,
      window_update fun i hi => slot_ne_tail hs hi⟩
    exact Function.update_noteq ((count_pos hs).mp hpos) _ _
  · obtain ⟨rfl, hlt, rfl⟩ := hprod
    simp only [step, hp, Tracks]
    obtain ⟨hc, hq⟩ :=
      contents_push hs hlt { s with tail := next k s.tail, producer := .idle } rfl rfl rfl
    refine ⟨⟨hh, by rw [next_eq]; exact Nat.mod_lt _ (Nat.two_pow_pos k), trivial,
      consumerOk_mono hs.consumer rfl (fun _ => by rw [hc]; exact Nat.succ_pos _) fun _ => rfl⟩,
      ?_⟩
    rw [hq]
    exact .pushOk _ _ (by rw [contents_length]; omega)

/-- **The consumer's step** (`tail_` check, slot read, `head_` store). -/
theorem step_consumer (hs : Inv k s) :
    Inv k (step k s .consumer).1 ∧
      Tracks (2 ^ k - 1) (contents k s) (step k s .consumer).2 (contents k (step k s .consumer).1) := by
  have hh := hs.head_lt
  have ht := hs.tail_lt
  have hcons := hs.consumer
  rcases hc : s.consumer with _ | ⟨p, h⟩ | ⟨p, h⟩ | ⟨x, h⟩ <;> rw [hc] at hcons
  · simp only [step, hc]
    exact ⟨hs, rfl⟩
  · obtain rfl : h = s.head := hcons
    by_cases hempty : s.head = s.tail
    · have hq : contents k s = [] := List.eq_nil_of_length_eq_zero (by
        rw [contents_length]; by_contra h0; exact (count_pos hs).mp (Nat.pos_of_ne_zero h0) hempty)
      simp only [step, hc, if_pos hempty, Tracks]
      refine ⟨⟨hh, ht, hs.producer, trivial⟩, ?_⟩
      show Legal _ (contents k s) _ (contents k s)
      rw [hq]
      cases p
      · exact .popEmpty
      · exact .peekEmpty
    · simp only [step, hc, if_neg hempty, Tracks]
      exact ⟨⟨hh, ht, hs.producer, rfl, (count_pos hs).mpr hempty⟩, rfl⟩
  · obtain ⟨rfl, hpos⟩ := hcons
    obtain ⟨-, hq⟩ := contents_pop hs hpos { s with head := next k s.head } rfl rfl rfl
    cases p
    · simp only [step, hc, Bool.false_eq_true, if_false, Tracks]
      exact ⟨⟨hh, ht, hs.producer, rfl, hpos, rfl⟩, rfl⟩
    · simp only [step, hc, if_true, Tracks]
      refine ⟨⟨hh, ht, hs.producer, trivial⟩, ?_⟩
      show Legal _ (contents k s) _ (contents k s)
      rw [hq]
      exact .peekOk _ _
  · obtain ⟨rfl, hpos, rfl⟩ := hcons
    simp only [step, hc, Tracks]
    obtain ⟨hcnt, hq⟩ :=
      contents_pop hs hpos { s with head := next k s.head, consumer := .idle } rfl rfl rfl
    refine ⟨⟨by rw [next_eq]; exact Nat.mod_lt _ (Nat.two_pow_pos k), ht,
      producerOk_mono hs.producer rfl (by rw [hcnt]; exact Nat.sub_le _ _) rfl, trivial⟩, ?_⟩
    rw [hq]
    exact .popOk _ _

/-- Every step keeps the invariant and tracks the abstract queue. -/
theorem step_inv (hs : Inv k s) (a : Act α) :
    Inv k (step k s a).1 ∧ Tracks (2 ^ k - 1) (contents k s) (step k s a).2 (contents k (step k s a).1) := by
  cases a with
  | producer => exact step_producer hs
  | consumer => exact step_consumer hs
  | push x =>
    rcases hp : s.producer with _ | ⟨y, t⟩ | ⟨y, t⟩ | ⟨y, t⟩ <;> simp only [step, hp]
    · exact ⟨⟨hs.head_lt, hs.tail_lt, rfl, hs.consumer⟩, rfl⟩
    all_goals exact ⟨hs, rfl⟩
  | pop | peek =>
    rcases hc : s.consumer with _ | ⟨p, h⟩ | ⟨p, h⟩ | ⟨y, h⟩ <;> simp only [step, hc]
    · exact ⟨⟨hs.head_lt, hs.tail_lt, hs.producer, rfl⟩, rfl⟩
    all_goals exact ⟨hs, rfl⟩

/-- A whole run keeps the invariant, and its completed operations replay on the queue. -/
theorem run_inv (acts : List (Act α)) (hs : Inv k s) :
    Inv k (run k s acts).1 ∧ Replays (2 ^ k - 1) (contents k s) (run k s acts).2 (contents k (run k s acts).1) := by
  induction acts generalizing s with
  | nil => exact ⟨hs, .nil _⟩
  | cons a as ih =>
    obtain ⟨hs', htr⟩ := step_inv hs a
    obtain ⟨hinv, hrep⟩ := ih hs'
    refine ⟨hinv, ?_⟩
    simp only [run]
    rcases he : (step k s a).2 with _ | r <;> rw [he] at htr
    · rw [← htr]; exact hrep
    · exact .cons htr hrep

/-! ## The observers and the main result -/

theorem size_eq_length : size k s = (contents k s).length := by
  rw [contents_length]
  exact Nat.and_pow_two_sub_one_eq_mod _ _

theorem empty_iff (hs : Inv k s) : empty s = true ↔ contents k s = [] := by
  have := count_pos hs
  rw [empty, beq_iff_eq, ← List.length_eq_zero, contents_length]
  omega

theorem full_iff (hs : Inv k s) : full k s = true ↔ (contents k s).length = 2 ^ k - 1 := by
  have hc := count_eq hs
  have hh := hs.head_lt
  have := hs.tail_lt
  rw [full, beq_iff_eq, contents_length, next_eq, mod_succ_eq this]
  split_ifs at hc ⊢ <;> omega

/-- **Linearizability of `SPSCRingBuffer`.** In every run from the constructor, the completed
    operations, in completion order, are a legal history of the bounded queue of capacity
    `Size - 1` from the empty queue to the queue the state represents; popped values are a prefix
    of pushed ones; and `size`, `empty` and `full` describe that queue. -/
theorem spsc_linearizable (buf : Nat → α) (acts : List (Act α)) :
    let r := run k (init buf) acts
    Replays (2 ^ k - 1) [] r.2 (contents k r.1) ∧
      r.2.filterMap Ret.popped <+: r.2.filterMap Ret.pushed ∧
      size k r.1 = (contents k r.1).length ∧
      (empty r.1 = true ↔ contents k r.1 = []) ∧
      (full k r.1 = true ↔ (contents k r.1).length = 2 ^ k - 1) := by
  obtain ⟨hs, hrep⟩ := run_inv acts ((inv_init buf : Inv k _))
  have h0 : contents k (init buf) = [] := by simp [contents, count, init, window]
  rw [h0] at hrep
  exact ⟨hrep, hrep.popped_prefix, size_eq_length, empty_iff hs, full_iff hs⟩

end SPSCRingBuffer

end L4lb
