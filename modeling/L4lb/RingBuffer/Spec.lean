import Mathlib

/-!
# `L4lb.RingBuffer.Spec` — the bounded FIFO queue both ring buffers implement

The sequential object: a list of queued items and a capacity. A completed operation is recorded
with its result (`Ret`), and `Legal cap q r q'` says that performing it on `q` may answer `r` and
leave `q'`. A history is a legal sequential execution when it `Replays` from the empty queue.

`Replays.append_pushed`: along a legal history, what was queued plus what was pushed equals what
was popped plus what is queued now. From the empty queue, the popped values are therefore a prefix
of the pushed values: nothing is lost, duplicated or reordered.
-/

namespace L4lb

/-- A completed queue operation and its result. -/
inductive Ret (α : Type)
  | push (x : α) (ok : Bool)
  | pop (r : Option α)
  | peek (r : Option α)
deriving DecidableEq, Repr

/-- One operation of the sequential bounded queue of capacity `cap`. -/
inductive Legal {α : Type} (cap : Nat) : List α → Ret α → List α → Prop
  | pushOk (x : α) (q : List α) : q.length < cap → Legal cap q (.push x true) (q ++ [x])
  | pushFull (x : α) (q : List α) : q.length = cap → Legal cap q (.push x false) q
  | popOk (x : α) (q : List α) : Legal cap (x :: q) (.pop (some x)) q
  | popEmpty : Legal cap [] (.pop none) []
  | peekOk (x : α) (q : List α) : Legal cap (x :: q) (.peek (some x)) (x :: q)
  | peekEmpty : Legal cap [] (.peek none) []

/-- `hist` is a legal sequential execution of the bounded queue from `q` to `q'`. -/
inductive Replays {α : Type} (cap : Nat) : List α → List (Ret α) → List α → Prop
  | nil (q : List α) : Replays cap q [] q
  | cons {q q₁ q' : List α} {r : Ret α} {rs : List (Ret α)} :
      Legal cap q r q₁ → Replays cap q₁ rs q' → Replays cap q (r :: rs) q'

namespace Ret

variable {α : Type}

/-- The value a successful push enqueued. -/
def pushed : Ret α → Option α
  | .push x true => some x
  | _ => none

/-- The value a successful pop dequeued. -/
def popped : Ret α → Option α
  | .pop (some x) => some x
  | _ => none

end Ret

variable {α : Type} {cap : Nat}

/-- **Conservation along a legal history.** -/
theorem Replays.append_pushed {q q' : List α} {hist : List (Ret α)} (h : Replays cap q hist q') :
    q ++ hist.filterMap Ret.pushed = hist.filterMap Ret.popped ++ q' := by
  induction h with
  | nil q => simp
  | cons hl _ ih =>
    cases hl with
    | pushOk x q _ => simpa [Ret.pushed, Ret.popped] using ih
    | pushFull => simpa [Ret.pushed, Ret.popped] using ih
    | popOk x q => simpa [Ret.pushed, Ret.popped] using ih
    | popEmpty => simpa [Ret.pushed, Ret.popped] using ih
    | peekOk => simpa [Ret.pushed, Ret.popped] using ih
    | peekEmpty => simpa [Ret.pushed, Ret.popped] using ih

/-- From the empty queue, the popped values are a prefix of the pushed values. -/
theorem Replays.popped_prefix {q' : List α} {hist : List (Ret α)} (h : Replays cap [] hist q') :
    hist.filterMap Ret.popped <+: hist.filterMap Ret.pushed := by
  have := h.append_pushed
  rw [List.nil_append] at this
  exact ⟨q', this.symm⟩

theorem Replays.append {q₁ q₂ q₃ : List α} {h₁ h₂ : List (Ret α)} (r₁ : Replays cap q₁ h₁ q₂)
    (r₂ : Replays cap q₂ h₂ q₃) : Replays cap q₁ (h₁ ++ h₂) q₃ := by
  induction r₁ with
  | nil => exact r₂
  | cons hl _ ih => exact .cons hl (ih r₂)

end L4lb
