-- SUMMARY: Storage of a fixed size that is read and written in parts, and numbers kept in it as words.
import Mathlib.Data.Nat.Digits.Defs

/-!
# Storage

The bytes of an object, which a program may use for one thing or for another. What is read from
them is what was written there last. A number is kept as a word, its lowest byte first.
-/

/-! ## Words -/

namespace Word

/-- The bytes of a number in a word of `size` bytes. -/
def bytes : (size : Nat) → Nat → List UInt8
  | 0, _ => []
  | size + 1, n => UInt8.ofNat n :: bytes size (n / 256)

/-- The number that is in a word. -/
def value (word : List UInt8) : Nat := Nat.ofDigits 256 (word.map UInt8.toNat)

@[simp] theorem length_bytes (size n : Nat) : (bytes size n).length = size := by
  induction size generalizing n with
  | zero => rfl
  | succ size ih => rw [bytes, List.length_cons, ih]

/-- A number that fits into the word is read back. -/
theorem value_bytes {size n : Nat} (h : n < 256 ^ size) : value (bytes size n) = n := by
  induction size generalizing n with
  | zero =>
      rw [pow_zero, Nat.lt_one_iff] at h
      rw [h]
      rfl
  | succ size ih =>
      have hrest : n / 256 < 256 ^ size := Nat.div_lt_of_lt_mul (by rwa [pow_succ'] at h)
      have hlow : (UInt8.ofNat n).toNat = n % 256 := UInt8.toNat_ofNat'
      have hvalue := ih hrest
      rw [value] at hvalue
      rw [bytes, value, List.map_cons, Nat.ofDigits_cons, hvalue, hlow]
      exact Nat.mod_add_div n 256

/-- Words of one size that hold the same number are the same. -/
theorem value_inj {v w : List UInt8} (hlength : v.length = w.length) (h : value v = value w) :
    v = w := by
  have hdigits : v.map UInt8.toNat = w.map UInt8.toNat := by
    refine Nat.ofDigits_inj_of_len_eq (by decide : 1 < 256) ?_ ?_ ?_ h
    · rw [List.length_map, List.length_map, hlength]
    · simpa using fun b _ => b.toNat_lt
    · simpa using fun b _ => b.toNat_lt
  exact (List.map_inj_right fun _ _ => UInt8.toNat_inj.mp).mp hdigits

end Word

/-! ## Reading and writing -/

/-- `size` bytes. -/
structure Storage (size : Nat) where
  bytes : List UInt8
  length_bytes : bytes.length = size
deriving DecidableEq

namespace Storage

variable {size : Nat}

/-- `count` bytes from `offset` on. -/
def read (s : Storage size) (offset count : Nat) : List UInt8 := (s.bytes.drop offset).take count

/-- The storage with `data` at `offset`. -/
def write (s : Storage size) (offset : Nat) (data : List UInt8) (h : offset + data.length ≤ size) :
    Storage size where
  bytes := s.bytes.take offset ++ (data ++ s.bytes.drop (offset + data.length))
  length_bytes := by
    have := s.length_bytes
    simp only [List.length_append, List.length_take, List.length_drop]
    omega

theorem length_read (s : Storage size) {offset count : Nat} (h : offset + count ≤ size) :
    (s.read offset count).length = count := by
  have := s.length_bytes
  rw [read, List.length_take, List.length_drop]
  omega

/-- Reading more goes on where reading less ends. -/
theorem read_add (s : Storage size) (offset count more : Nat) :
    s.read offset (count + more) = s.read offset count ++ s.read (offset + count) more := by
  rw [read, read, read, List.take_add, List.drop_drop]

variable (s : Storage size) {offset : Nat} {data : List UInt8} (h : offset + data.length ≤ size)

private theorem length_take_offset {s : Storage size} (h : offset + data.length ≤ size) :
    (s.bytes.take offset).length = offset := by
  have := s.length_bytes
  rw [List.length_take]
  omega

theorem read_write_self {count : Nat} (hcount : data.length = count) :
    (s.write offset data h).read offset count = data := by
  subst hcount
  have hoffset := length_take_offset (s := s) h
  rw [read, write, List.drop_append_of_le_length hoffset.ge, List.drop_of_length_le hoffset.le,
    List.nil_append, List.take_left]

theorem write_bytes {t : Storage size} (h : 0 + t.bytes.length ≤ size) :
    s.write 0 t.bytes h = t := by
  have hlength : s.bytes.length ≤ t.bytes.length := by rw [s.length_bytes, t.length_bytes]
  cases t
  simpa [write] using hlength

theorem read_write_before {start count : Nat} (hle : start + count ≤ offset) :
    (s.write offset data h).read start count = s.read start count := by
  have hoffset := length_take_offset (s := s) h
  rw [read, write, List.drop_append_of_le_length (by omega), List.take_append_of_le_length,
    List.drop_take, List.take_take, min_eq_left (by omega), read]
  rw [List.length_drop]
  omega

theorem read_write_after {start count : Nat} (hle : offset + data.length ≤ start) :
    (s.write offset data h).read start count = s.read start count := by
  have hoffset := length_take_offset (s := s) h
  have hbefore : (s.bytes.take offset).length ≤ start := by omega
  rw [read, write, List.drop_append, List.drop_of_length_le hbefore, List.nil_append, hoffset,
    List.drop_append, List.drop_of_length_le (by omega), List.nil_append, List.drop_drop, read]
  congr 2
  omega

/-! ## Words in a storage -/

/-- The word of 8 bytes at `offset`. -/
def word (s : Storage size) (offset : Nat) : Nat := Word.value (s.read offset 8)

def writeWord (s : Storage size) (offset n : Nat) (h : offset + 8 ≤ size) : Storage size :=
  s.write offset (Word.bytes 8 n) (by rwa [Word.length_bytes])

variable (w : offset + 8 ≤ size) {n : Nat}

theorem word_writeWord_self (hn : n < 2 ^ 64) : (s.writeWord offset n w).word offset = n := by
  rw [word, writeWord, read_write_self _ _ (Word.length_bytes 8 n)]
  exact Word.value_bytes (by simpa using hn)

theorem word_writeWord_before {start : Nat} (hle : start + 8 ≤ offset) :
    (s.writeWord offset n w).word start = s.word start := by
  rw [word, writeWord, read_write_before _ _ hle, word]

/-- Two words that are written one after the other are both there. -/
theorem words_writeWord {a b : Nat} (ha : a < 2 ^ 64) (hb : b < 2 ^ 64) (h : 0 + 8 ≤ size)
    (h' : 8 + 8 ≤ size) : ((s.writeWord 0 a h).writeWord 8 b h').word 0 = a ∧
      ((s.writeWord 0 a h).writeWord 8 b h').word 8 = b := by
  refine ⟨?_, word_writeWord_self _ _ hb⟩
  rw [word_writeWord_before _ _ le_rfl, word_writeWord_self _ _ ha]

/-- Two words say what 16 bytes say. -/
theorem read_eq_iff_word {s t : Storage size} (h : 16 ≤ size) :
    s.read 0 16 = t.read 0 16 ↔ s.word 0 = t.word 0 ∧ s.word 8 = t.word 8 := by
  have hlength (u : Storage size) (offset : Nat) (hle : offset + 8 ≤ 16) :
      (u.read offset 8).length = 8 := u.length_read (by omega)
  have hsplit (u : Storage size) : u.read 0 16 = u.read 0 8 ++ u.read 8 8 := u.read_add 0 8 8
  have hs := hlength s 0 (by omega)
  have ht := hlength t 0 (by omega)
  constructor
  · intro heq
    rw [hsplit, hsplit] at heq
    obtain ⟨hfirst, hsecond⟩ := List.append_inj heq (hs.trans ht.symm)
    exact ⟨congrArg Word.value hfirst, congrArg Word.value hsecond⟩
  · rintro ⟨hfirst, hsecond⟩
    rw [hsplit, hsplit, Word.value_inj (hs.trans ht.symm) hfirst,
      Word.value_inj ((hlength s 8 le_rfl).trans (hlength t 8 le_rfl).symm) hsecond]

end Storage

/-! ## Elements -/

namespace Storage

variable {size : Nat}

/-- The bytes of an array. -/
def arrayBytes (elements : List (Storage size)) : List UInt8 := (elements.map bytes).flatten

theorem length_arrayBytes (elements : List (Storage size)) :
    (arrayBytes elements).length = elements.length * size := by
  induction elements with
  | nil => simp [arrayBytes]
  | cons e elements ih =>
      have hcons : arrayBytes (e :: elements) = e.bytes ++ arrayBytes elements := rfl
      rw [hcons, List.length_append, ih, e.length_bytes, List.length_cons, Nat.succ_mul,
        Nat.add_comm]

/-- Bytes that begin with those of an array are, element by element, those of the array. -/
theorem take_eq_arrayBytes_iff {elements : List (Storage size)} {memory : List UInt8} :
    memory.take (elements.length * size) = arrayBytes elements ↔
      ∀ i (h : i < elements.length), (memory.drop (i * size)).take size = elements[i].bytes := by
  induction elements generalizing memory with
  | nil => simp [arrayBytes]
  | cons e elements ih =>
      have hcons : arrayBytes (e :: elements) = e.bytes ++ arrayBytes elements := rfl
      have hlength : (e :: elements).length * size = size + elements.length * size := by
        rw [List.length_cons, Nat.succ_mul, Nat.add_comm]
      have hsplit : memory.take (size + elements.length * size) = e.bytes ++ arrayBytes elements ↔
          memory.take size = e.bytes ∧
            (memory.drop size).take (elements.length * size) = arrayBytes elements := by
        constructor
        · intro heq
          have htake := congrArg (List.take size) heq
          have hdrop := congrArg (List.drop size) heq
          rw [List.take_take, min_eq_left (Nat.le_add_right ..),
            List.take_left' e.length_bytes] at htake
          rw [List.drop_take, Nat.add_sub_cancel_left, List.drop_left' e.length_bytes] at hdrop
          exact ⟨htake, hdrop⟩
        · rintro ⟨hfirst, hrest⟩
          rw [List.take_add, hfirst, hrest]
      rw [hlength, hcons, hsplit, ih]
      constructor
      · rintro ⟨hfirst, hrest⟩ i hi
        cases i with
        | zero => simpa using hfirst
        | succ i =>
            have hi' := hrest i (Nat.lt_of_succ_lt_succ hi)
            rwa [List.drop_drop, Nat.add_comm, ← Nat.succ_mul] at hi'
      · intro hall
        refine ⟨by simpa using hall 0 (Nat.succ_pos _), fun i hi => ?_⟩
        have hi' := hall (i + 1) (Nat.succ_lt_succ hi)
        rwa [List.drop_drop, Nat.add_comm, ← Nat.succ_mul]

end Storage
