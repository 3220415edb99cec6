-- SUMMARY: Lists of times at a fixed interval, which are extended at the end and cut at the front.
import Mathlib.Data.List.Chain
import Mathlib.Data.List.DropRight
import Mathlib.Algebra.Order.Ring.Int
import Mathlib.Algebra.Ring.Divisibility.Basic

/-!
# Series of times

A time series has one entry for each interval from its first time to its last one. It
grows by whole intervals until it reaches a time, and keeps a number of its last entries.
-/

namespace Series

/-- Each time is one interval after the one before it. -/
def Evenly (d : Int) (times : List Int) : Prop := times.IsChain fun t u => u = t + d

/-- The number of intervals after `last` that reach `time`. -/
def missing (d last time : Int) : Nat := (-((last - time) / d)).toNat

/-- The times of so many intervals after `last`. -/
def following (d last : Int) (k : Nat) : List Int :=
  (List.range k).map fun i : Nat => last + ((i : Int) + 1) * d

variable {d last time : Int} {times : List Int}

/-! ## Growing -/

theorem missing_le_iff (hd : 0 < d) (k : Nat) : missing d last time ≤ k ↔ time ≤ last + k * d := by
  rw [missing, Int.toNat_le]
  have hdiv := Int.le_ediv_iff_mul_le (a := -(k : Int)) (b := last - time) hd
  rw [Int.neg_mul] at hdiv
  omega

theorem missing_eq_zero_iff (hd : 0 < d) : missing d last time = 0 ↔ time ≤ last := by
  have h : missing d last time ≤ 0 ↔ time ≤ last + (0 : Nat) * d := missing_le_iff hd 0
  simp only [Nat.le_zero, Nat.cast_zero, Int.zero_mul, Int.add_zero] at h
  exact h

/-- Where the time is a whole number of intervals away, it is reached exactly. -/
theorem last_add_missing (hd : 0 < d) (hle : last ≤ time) (hdvd : d ∣ time - last) :
    last + missing d last time * d = time := by
  obtain ⟨k, hk⟩ := hdvd
  have hpos : 0 ≤ k := by
    rcases Int.lt_or_le k 0 with hneg | hpos
    · have := Int.mul_neg_of_pos_of_neg hd hneg
      omega
    · exact hpos
  have hdiv : (last - time) / d = -k := by
    have heq : last - time = d * -k := by
      rw [Int.mul_neg, ← hk]
      omega
    rw [heq, Int.mul_ediv_cancel_left _ (by omega)]
  rw [missing, hdiv, Int.neg_neg, Int.toNat_of_nonneg hpos, Int.mul_comm]
  omega

@[simp] theorem following_zero : following d last 0 = [] := rfl

theorem following_succ (k : Nat) :
    following d last (k + 1) = following d last k ++ [last + (k + 1) * d] := by
  simp [following, List.range_succ]

theorem lt_of_mem_following (hd : 0 < d) {k : Nat} (h : time ∈ following d last k) :
    last < time := by
  obtain ⟨i, -, rfl⟩ := List.mem_map.mp h
  have hpos := Int.mul_pos (Int.ofNat_succ_pos i) hd
  rw [Int.natCast_succ] at hpos
  omega

theorem getLast?_append_following (hlast : times.getLast? = some last) (k : Nat) :
    (times ++ following d last k).getLast? = some (last + k * d) := by
  cases k with
  | zero => simpa using hlast
  | succ k => simp [following_succ]

theorem Evenly.append_following (h : Evenly d times) (hlast : times.getLast? = some last)
    (k : Nat) : Evenly d (times ++ following d last k) := by
  induction k with
  | zero => simpa using h
  | succ k ih =>
      rw [following_succ, ← List.append_assoc]
      refine ih.append (List.isChain_singleton _) fun t ht u hu => ?_
      rw [getLast?_append_following hlast] at ht
      obtain rfl := Option.some.inj ht
      obtain rfl := Option.some.inj hu
      rw [Int.add_mul, Int.one_mul, Int.add_assoc]

/-! ## Order and membership -/

theorem Evenly.suffix {tail : List Int} (h : Evenly d times) (hsuffix : tail <:+ times) :
    Evenly d tail := List.IsChain.suffix h hsuffix

theorem Evenly.pairwise_lt (h : Evenly d times) (hd : 0 < d) : times.Pairwise (· < ·) := by
  have hchain : times.IsChain (· < ·) := h.imp fun t u hu => by omega
  exact hchain.pairwise

theorem Evenly.nodup (h : Evenly d times) (hd : 0 < d) : times.Nodup :=
  (h.pairwise_lt hd).imp fun hlt => ne_of_lt hlt

theorem Evenly.forall_dvd_cons (h : Evenly d (last :: times)) :
    ∀ t ∈ last :: times, d ∣ t - last := by
  induction times generalizing last with
  | nil => simp
  | cons t times ih =>
      obtain ⟨rfl, htail⟩ := List.isChain_cons_cons.mp h
      intro u hu
      rcases List.mem_cons.mp hu with rfl | hu
      · simp
      · obtain ⟨k, hk⟩ := ih htail u hu
        exact ⟨k + 1, by rw [Int.mul_add, Int.mul_one, ← hk]; omega⟩

/-- Any two of the times are a number of intervals apart. -/
theorem Evenly.dvd_sub (h : Evenly d times) {t u : Int} (ht : t ∈ times) (hu : u ∈ times) :
    d ∣ t - u := by
  cases times with
  | nil => cases ht
  | cons first times =>
      have heq : t - u = t - first - (u - first) := by omega
      rw [heq]
      exact Int.dvd_sub (h.forall_dvd_cons t ht) (h.forall_dvd_cons u hu)

/-- The first time and the last one are as far apart as there are times between them. -/
theorem Evenly.getLast?_cons {first : Int} (h : Evenly d (first :: times)) :
    (first :: times).getLast? = some (first + times.length * d) := by
  induction times generalizing first with
  | nil => simp
  | cons t times ih =>
      obtain ⟨rfl, htail⟩ := List.isChain_cons_cons.mp h
      rw [List.getLast?_cons_cons, ih htail]
      simp only [List.length_cons, Nat.cast_add, Nat.cast_one, Int.add_mul, Int.one_mul]
      congr 1
      omega

/-- The times between the first and the last are those at whole intervals from the first. -/
theorem Evenly.mem_iff {first : Int} (h : Evenly d times) (hd : 0 < d)
    (hfirst : times.head? = some first) (hlast : times.getLast? = some last) :
    time ∈ times ↔ first ≤ time ∧ time ≤ last ∧ d ∣ time - first := by
  cases times with
  | nil => cases hfirst
  | cons t times =>
      obtain rfl := Option.some.inj hfirst
      rw [h.getLast?_cons] at hlast
      obtain rfl := Option.some.inj hlast
      clear hfirst hlast
      induction times generalizing t with
      | nil =>
          simp only [List.mem_singleton, List.length_nil, Nat.cast_zero, Int.zero_mul, Int.add_zero]
          constructor
          · rintro rfl
            exact ⟨le_rfl, le_rfl, by simp⟩
          · rintro ⟨hge, hle, -⟩
            omega
      | cons u times ih =>
          obtain ⟨rfl, htail⟩ := List.isChain_cons_cons.mp h
          rw [List.mem_cons, ih (t + d) htail, List.length_cons, Nat.cast_add, Nat.cast_one,
            Int.add_mul, Int.one_mul]
          have hlen : 0 ≤ (times.length : Int) * d := Int.mul_nonneg (by omega) (by omega)
          have hsub : time - (t + d) = time - t - d := by omega
          rw [hsub, dvd_sub_self_right]
          constructor
          · rintro (rfl | ⟨hge, hle, hdvd⟩)
            · exact ⟨le_rfl, by omega, by simp⟩
            · exact ⟨by omega, by omega, hdvd⟩
          · rintro ⟨hge, hle, hdvd⟩
            rcases Int.lt_or_le t time with hlt | heq
            · have hstep := Int.le_of_dvd (by omega) hdvd
              exact .inr ⟨by omega, by omega, hdvd⟩
            · exact .inl (by omega)

/-! ## Keeping the last entries -/

section

variable {α : Type*} {n : Nat} {l : List α}

theorem rtake_suffix (l : List α) (n : Nat) : l.rtake n <:+ l := List.drop_suffix _ _

theorem length_rtake (l : List α) (n : Nat) : (l.rtake n).length = min n l.length := by
  rw [List.rtake, List.length_drop]
  omega

theorem rtake_eq_self (h : l.length ≤ n) : l.rtake n = l := by
  rw [List.rtake, Nat.sub_eq_zero_of_le h, List.drop_zero]

/-- Cutting before the list is extended makes no difference. -/
theorem rtake_rtake_append (l tail : List α) (n : Nat) :
    (l.rtake n ++ tail).rtake n = (l ++ tail).rtake n := by
  rw [List.rtake, List.rtake, List.rtake, List.length_append, List.length_append,
    List.length_drop, List.drop_append, List.drop_append, List.drop_drop, List.length_drop]
  congr 2 <;> omega

theorem getLast?_rtake (hn : 0 < n) : (l.rtake n).getLast? = l.getLast? := by
  cases l with
  | nil => simp
  | cons a l =>
      rw [List.rtake, List.getLast?_drop, if_neg]
      simp only [List.length_cons]
      omega

end

end Series
