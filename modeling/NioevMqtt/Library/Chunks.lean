-- SUMMARY: Stream consumers that may stop: if a consumer takes its input one element at a time, how the stream is cut into chunks does not matter.
import Mathlib.Data.List.Basic

/-!
# Chunked streams

A consumer receives a stream in chunks and keeps a state between them. It may
stop for good, with an error. `Elementwise` says that on every state satisfying
an invariant the consumer treats a chunk as its elements one after another; from
that, its result on a stream depends on the stream only.
-/

namespace Chunks

variable {β σ ε : Type*}

/-- The consumer `feed` takes a chunk element by element, on the states of `I`. -/
structure Elementwise (I : σ → Prop) (feed : List β → σ → Except ε σ) : Prop where
  nil : ∀ s, feed [] s = .ok s
  cons : ∀ b bs s, I s → feed (b :: bs) s = (feed [b] s >>= feed bs)
  preserves : ∀ b s s', I s → feed [b] s = .ok s' → I s'

namespace Elementwise

variable {I : σ → Prop} {feed : List β → σ → Except ε σ}

theorem append (h : Elementwise I feed) (xs ys : List β) {s : σ} (hs : I s) :
    feed (xs ++ ys) s = (feed xs s >>= feed ys) := by
  induction xs generalizing s with
  | nil => rw [h.nil]; rfl
  | cons b xs ih =>
      rw [List.cons_append, h.cons b _ s hs, h.cons b xs s hs]
      cases hb : feed [b] s with
      | error e => rfl
      | ok s' => exact ih (h.preserves b s s' hs hb)

theorem preserves_chunk (h : Elementwise I feed) (xs : List β) {s s' : σ} (hs : I s)
    (hfeed : feed xs s = .ok s') : I s' := by
  induction xs generalizing s with
  | nil =>
      rw [h.nil] at hfeed
      cases hfeed
      exact hs
  | cons b xs ih =>
      rw [h.cons b xs s hs] at hfeed
      cases hb : feed [b] s with
      | error e => rw [hb] at hfeed; cases hfeed
      | ok t =>
          rw [hb] at hfeed
          exact ih (h.preserves b s t hs hb) hfeed

/-- Consuming the chunks one after another is consuming the whole stream. -/
theorem foldlM_flatten (h : Elementwise I feed) (chunks : List (List β)) {s : σ} (hs : I s) :
    chunks.foldlM (fun s chunk => feed chunk s) s = feed chunks.flatten s := by
  induction chunks generalizing s with
  | nil => rw [List.flatten_nil, h.nil]; rfl
  | cons c cs ih =>
      rw [List.foldlM_cons, List.flatten_cons, h.append c _ hs]
      cases hc : feed c s with
      | error e => rfl
      | ok s' => exact ih (h.preserves_chunk c hs hc)

/-- Two ways of cutting one stream give one result. -/
theorem chunking_independent (h : Elementwise I feed) {xs ys : List (List β)} {s : σ} (hs : I s)
    (hstream : xs.flatten = ys.flatten) :
    xs.foldlM (fun s chunk => feed chunk s) s = ys.foldlM (fun s chunk => feed chunk s) s := by
  rw [h.foldlM_flatten xs hs, h.foldlM_flatten ys hs, hstream]

end Elementwise

end Chunks
