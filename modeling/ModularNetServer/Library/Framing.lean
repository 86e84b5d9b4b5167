import Mathlib.Data.List.Basic
import Mathlib.Data.List.Induction
import Mathlib.Algebra.BigOperators.Group.List.Basic
import Mathlib.Algebra.GroupWithZero.Nat
import Mathlib.Tactic.TypeStar

/-!
# Streams of frames

Items are sent one after the other and arrive cut into chunks of any size. A parser takes an item from
the front of a buffer if the buffer holds all of it. A consumer that parses once for each chunk keeps up
with the stream exactly if no chunk completes two items.
-/

/-- An encoding of items, with a parser. A parsed value tells the size of its encoding, and the parser
    never takes fewer bytes than that. -/
structure Framing (ι β μ ε : Type*) where
  enc : ι → List β
  val : ι → μ
  parse : List β → Except ε (Option (μ × List β))
  size : μ → Nat
  length_enc : ∀ x, (enc x).length = size (val x)
  parse_nil : parse [] = .ok none
  parse_enc : ∀ x r, parse (enc x ++ r) = .ok (some (val x, r))
  parse_partial : ∀ x p, p <+: enc x → p.length < (enc x).length → parse p = .ok none
  parse_size : ∀ b m r, parse b = .ok (some (m, r)) → size m + r.length ≤ b.length

namespace Framing

variable {ι β μ ε : Type*} (F : Framing ι β μ ε)

/-- The encodings of items, one after the other. -/
def stream (items : List ι) : List β := items.flatMap F.enc

/-- How many items are complete in the first `n` bytes of a stream. -/
def complete : List ι → Nat → Nat
  | [], _ => 0
  | x :: items, n =>
    if (F.enc x).length ≤ n then complete items (n - (F.enc x).length) + 1 else 0

/-- What is left of the first `n` bytes of a stream after the complete items. -/
def pending (items : List ι) (n : Nat) : List β :=
  ((F.stream items).take n).drop (F.stream (items.take (F.complete items n))).length

/-- A chunk arrives and the parser is called once. -/
def consume (s : List μ × List β) (chunk : List β) : Except ε (List μ × List β) :=
  match F.parse (s.2 ++ chunk) with
  | .error e => .error e
  | .ok none => .ok (s.1, s.2 ++ chunk)
  | .ok (some (m, rest)) => .ok (s.1 ++ [m], rest)

/-- Chunks arrive one after the other. -/
def run (s : List μ × List β) : List (List β) → Except ε (List μ × List β)
  | [] => .ok s
  | chunk :: chunks =>
    match F.consume s chunk with
    | .error e => .error e
    | .ok s => run s chunks

/-- No chunk completes two items. -/
def Single (items : List ι) (chunks : List (List β)) : Prop :=
  ∀ pre x, pre ++ [x] <+: chunks →
    F.complete items (pre ++ [x]).flatten.length ≤ F.complete items pre.flatten.length + 1

/-! ## Complete items -/

variable {F} {items : List ι} {n n' : Nat}

@[simp] theorem complete_nil (n : Nat) : F.complete [] n = 0 := rfl

@[simp] theorem stream_cons (x : ι) (items : List ι) :
    F.stream (x :: items) = F.enc x ++ F.stream items := by simp [stream]

theorem stream_append (items items' : List ι) :
    F.stream (items ++ items') = F.stream items ++ F.stream items' := List.flatMap_append

theorem complete_le_length (items : List ι) (n : Nat) : F.complete items n ≤ items.length := by
  induction items generalizing n with
  | nil => simp
  | cons x items ih =>
    simp only [complete, List.length_cons]
    split
    · exact Nat.succ_le_succ (ih _)
    · exact Nat.zero_le _

theorem complete_mono (h : n ≤ n') : F.complete items n ≤ F.complete items n' := by
  induction items generalizing n n' with
  | nil => simp
  | cons x items ih =>
    simp only [complete]
    split
    · rw [if_pos (by omega)]
      exact Nat.succ_le_succ (ih (by omega))
    · exact Nat.zero_le _

/-- The complete items fit, and the one after them does not. -/
theorem complete_spec (items : List ι) (n : Nat) :
    (F.stream (items.take (F.complete items n))).length ≤ n ∧
      ∀ x, items[F.complete items n]? = some x →
        n < (F.stream (items.take (F.complete items n))).length + (F.enc x).length := by
  induction items generalizing n with
  | nil => simp [stream]
  | cons x items ih =>
    simp only [complete]
    split
    · rename_i hx
      obtain ⟨hle, hlt⟩ := ih (n - (F.enc x).length)
      simp only [List.take_succ_cons, stream_cons, List.length_append, List.getElem?_cons_succ]
      refine ⟨by omega, ?_⟩
      intro y hy
      have := hlt y hy
      omega
    · rename_i hx
      refine ⟨by simp [stream], ?_⟩
      intro y hy
      simp only [List.getElem?_cons_zero, Option.some.injEq] at hy
      subst hy
      simp [stream]
      omega

/-- The whole stream completes all items. -/
theorem complete_stream (items : List ι) :
    F.complete items (F.stream items).length = items.length := by
  induction items with
  | nil => rfl
  | cons x items ih => simp [complete, ih]

theorem stream_take_drop (items : List ι) (k : Nat) :
    F.stream items = F.stream (items.take k) ++ F.stream (items.drop k) := by
  rw [← stream_append, List.take_append_drop]

theorem drop_stream (items : List ι) (k : Nat) :
    (F.stream items).drop (F.stream (items.take k)).length = F.stream (items.drop k) := by
  conv_lhs => rw [stream_take_drop items k]
  exact List.drop_left

/-- The start of the stream from the item after the first `k`. -/
theorem drop_take_stream (items : List ι) (k n : Nat) :
    ((F.stream items).take n).drop (F.stream (items.take k)).length =
      (F.stream (items.drop k)).take (n - (F.stream (items.take k)).length) := by
  rw [List.drop_take, drop_stream]

theorem enc_ne_nil (x : ι) : F.enc x ≠ [] := by
  intro h
  have hparse := F.parse_enc x []
  rw [h, List.nil_append, F.parse_nil] at hparse
  cases hparse

@[simp] theorem complete_zero (items : List ι) : F.complete items 0 = 0 := by
  cases items with
  | nil => rfl
  | cons x items =>
    have hx := List.length_pos_iff.mpr (enc_ne_nil (F := F) x)
    simp only [complete]
    rw [if_neg (by omega)]

theorem pending_nil (items : List ι) : F.pending items 0 = [] := by simp [pending]

/-! ## Parsing what has arrived -/

/-- The pending bytes hold no complete item. -/
theorem parse_pending (items : List ι) (n : Nat) : F.parse (F.pending items n) = .ok none := by
  obtain ⟨hle, hlt⟩ := @complete_spec _ _ _ _ F items n
  unfold pending
  rw [drop_take_stream]
  generalize hk : F.complete items n = k at *
  cases hx : items[k]? with
  | none =>
    rw [List.drop_eq_nil_of_le (List.getElem?_eq_none_iff.mp hx)]
    simpa [stream] using F.parse_nil
  | some x =>
    have hlt := hlt x hx
    obtain ⟨hklt, hget⟩ := List.getElem?_eq_some_iff.mp hx
    rw [List.drop_eq_getElem_cons hklt, hget, stream_cons, List.take_append_of_le_length (by omega)]
    apply F.parse_partial x _ (List.take_prefix _ _)
    rw [List.length_take]
    omega

/-- Bytes arrive that complete one item. -/
theorem parse_complete (hone : F.complete items n' = F.complete items n + 1) :
    ∃ x, items[F.complete items n]? = some x ∧
      F.parse (((F.stream items).take n').drop
          (F.stream (items.take (F.complete items n))).length) =
        .ok (some (F.val x, F.pending items n')) := by
  generalize hk : F.complete items n = k at *
  have hle := (@complete_spec _ _ _ _ F items n').1
  have hklt : k < items.length := by
    have := @complete_le_length _ _ _ _ F items n'
    omega
  have htake : items.take (k + 1) = items.take k ++ [items[k]] := List.take_succ_eq_append_getElem hklt
  refine ⟨items[k], List.getElem?_eq_getElem hklt, ?_⟩
  unfold pending
  rw [hone] at hle ⊢
  rw [htake] at hle ⊢
  have hsize : (F.stream (items.take k ++ [items[k]])).length =
      (F.stream (items.take k)).length + (F.enc items[k]).length := by
    rw [stream_append, List.length_append]
    simp [stream]
  rw [hsize] at hle ⊢
  rw [← List.drop_drop, drop_take_stream, List.drop_eq_getElem_cons hklt, stream_cons]
  have hsplit : n' - (F.stream (items.take k)).length =
      (F.enc items[k]).length + (n' - (F.stream (items.take k)).length - (F.enc items[k]).length) := by
    omega
  rw [hsplit, List.take_length_add_append, List.drop_left]
  exact F.parse_enc _ _

/-- A chunk that completes at most one item. -/
theorem consume_pending {chunk : List β}
    (hchunk : (F.stream items).take (n + chunk.length) = (F.stream items).take n ++ chunk)
    (hn : n ≤ (F.stream items).length)
    (hone : F.complete items (n + chunk.length) ≤ F.complete items n + 1) :
    F.consume ((items.take (F.complete items n)).map F.val, F.pending items n) chunk =
      .ok ((items.take (F.complete items (n + chunk.length))).map F.val,
        F.pending items (n + chunk.length)) := by
  have hle := (@complete_spec _ _ _ _ F items n).1
  have hmono : F.complete items n ≤ F.complete items (n + chunk.length) := complete_mono (by omega)
  have hbuf : F.pending items n ++ chunk = ((F.stream items).take (n + chunk.length)).drop
      (F.stream (items.take (F.complete items n))).length := by
    unfold pending
    rw [hchunk, List.drop_append_of_le_length (by rw [List.length_take]; omega)]
  unfold consume
  dsimp only
  rw [hbuf]
  by_cases hsame : F.complete items (n + chunk.length) = F.complete items n
  · have hpend : ((F.stream items).take (n + chunk.length)).drop
        (F.stream (items.take (F.complete items n))).length = F.pending items (n + chunk.length) := by
      rw [← hsame]
      rfl
    rw [hpend, parse_pending, hsame]
  · have hnext : F.complete items (n + chunk.length) = F.complete items n + 1 := by omega
    obtain ⟨x, hx, hparse⟩ := parse_complete hnext
    obtain ⟨hklt, hget⟩ := List.getElem?_eq_some_iff.mp hx
    rw [hparse, hnext, List.take_succ_eq_append_getElem hklt, hget]
    simp

/-! ## Runs -/

theorem run_append (s : List μ × List β) (chunks chunks' : List (List β)) :
    F.run s (chunks ++ chunks') =
      match F.run s chunks with
      | .error e => .error e
      | .ok s => F.run s chunks' := by
  induction chunks generalizing s with
  | nil => rfl
  | cons chunk chunks ih =>
    simp only [List.cons_append, run]
    cases F.consume s chunk with
    | error e => rfl
    | ok s => exact ih s

theorem run_concat (s : List μ × List β) (chunks : List (List β)) (chunk : List β) :
    F.run s (chunks ++ [chunk]) =
      match F.run s chunks with
      | .error e => .error e
      | .ok s => F.consume s chunk := by
  rw [run_append]
  cases F.run s chunks with
  | error e => rfl
  | ok s =>
    simp only [run]
    cases F.consume s chunk <;> rfl

theorem Single.of_concat {chunks : List (List β)} {chunk : List β}
    (h : F.Single items (chunks ++ [chunk])) : F.Single items chunks :=
  fun pre x hpre => h pre x (hpre.trans (List.prefix_append _ _))

/-- A consumer keeps up as long as no chunk completes two items. -/
theorem run_of_single {chunks : List (List β)} (hchunks : chunks.flatten <+: F.stream items)
    (hsingle : F.Single items chunks) :
    F.run ([], []) chunks =
      .ok ((items.take (F.complete items chunks.flatten.length)).map F.val,
        F.pending items chunks.flatten.length) := by
  induction chunks using List.reverseRecOn with
  | nil => simp [run, pending_nil]
  | append_singleton chunks chunk ih =>
    have hone := hsingle chunks chunk (List.prefix_refl _)
    have hflat : (chunks ++ [chunk]).flatten = chunks.flatten ++ chunk := by simp
    rw [hflat] at hchunks hone ⊢
    have hprev : chunks.flatten <+: F.stream items := (List.prefix_append _ _).trans hchunks
    have htake := List.prefix_iff_eq_take.mp hchunks
    have htakePrev := List.prefix_iff_eq_take.mp hprev
    rw [List.length_append] at htake hone ⊢
    rw [run_concat, ih hprev hsingle.of_concat]
    apply consume_pending _ hprev.length_le hone
    rw [← htake, ← htakePrev]

/-- What has been parsed and what is left over have arrived. -/
theorem run_size {s s' : List μ × List β} {chunks : List (List β)} (h : F.run s chunks = .ok s') :
    (s'.1.map F.size).sum + s'.2.length ≤
      (s.1.map F.size).sum + s.2.length + chunks.flatten.length := by
  induction chunks generalizing s with
  | nil =>
    cases h
    simp
  | cons chunk chunks ih =>
    simp only [run] at h
    split at h
    · cases h
    · rename_i t ht
      have hrest := ih h
      have hfirst : (t.1.map F.size).sum + t.2.length ≤
          (s.1.map F.size).sum + s.2.length + chunk.length := by
        unfold consume at ht
        split at ht
        · cases ht
        · cases ht
          simp only [List.length_append]
          omega
        · rename_i m rest hparse
          cases ht
          have hsize := F.parse_size _ _ _ hparse
          rw [List.length_append] at hsize
          simp only [List.map_append, List.map_cons, List.map_nil, List.sum_append, List.sum_cons,
            List.sum_nil]
          omega
      simp only [List.flatten_cons, List.length_append]
      omega

theorem length_stream (items : List ι) :
    (F.stream items).length = ((items.map F.val).map F.size).sum := by
  induction items with
  | nil => rfl
  | cons x items ih => simp [ih, F.length_enc]

end Framing
