-- SUMMARY: `BigString` refines a plain string, over every run, exactly as long as no string that is long is moved or moved into.
import NioevMqtt.Library.OwnedBuffers
import NioevMqtt.Library.Storage

/-!
# Strings that are short or long

A `BigString` keeps a short string in its own bytes and a long one in a buffer of the heap, and
then its bytes are the pointer and the length. A flag says which. The characters that a string is
set to are the caller's, and a constructor that gets none of their number sets those before the
first zero.
-/

namespace NioevMqtt

open Runs OwnedBuffers

/-- What the `static_assert`s admit. -/
structure BigString.Capacity where
  Length : Nat
  le : Length ≤ 255
  ge : 8 + 8 ≤ Length + 1

structure BigString (c : BigString.Capacity) where
  isLong : Bool := false
  mShortLength : UInt8 := 0
  mStr : Storage (c.Length + 1)

namespace BigString

variable {c : Capacity}

/-- The constructors' member initialisers. -/
def fresh (raw : Storage (c.Length + 1)) : BigString c := { mStr := raw }

/-- The pointer of a long string. -/
def pointer (s : BigString c) : Nat := s.mStr.word 0

def size (s : BigString c) : Nat :=
  if s.isLong then s.mStr.word 8 else s.mShortLength.toNat

/-- The characters that `c_str()` points to. -/
def c_str (h : Heap (List UInt8)) (s : BigString c) : Option (List UInt8) :=
  if s.isLong then h.buffers s.pointer else some s.mStr.bytes

def clear (s : BigString c) (h : Heap (List UInt8)) : BigString c × Heap (List UInt8) :=
  ({ mStr := s.mStr.write 0 [0] (by simp), mShortLength := 0, isLong := false },
    if s.isLong then h.delete s.pointer else h)

def set (s : BigString c) (data : List UInt8) (address : Nat) (h : Heap (List UInt8)) :
    Option (BigString c × Heap (List UInt8)) :=
  let (s, h) := s.clear h
  if hlong : c.Length ≤ data.length then
    if h.MayReturn address (data.length + 1) then
      let mStr := s.mStr.writeWord 0 address (by have := c.ge; omega)
      let mStr := mStr.writeWord 8 data.length c.ge
      some ({ s with mStr, isLong := true }, h.new address (data ++ [0]))
    else none
  else
    let mStr := s.mStr.write 0 data (by omega)
    let mStr := mStr.write data.length [0] (by simp; omega)
    some ({ mShortLength := UInt8.ofNat data.length, mStr, isLong := false }, h)

/-- The assignments to `*this` in `operator=`. -/
def copy (target source : BigString c) : BigString c where
  mStr := target.mStr.write 0 source.mStr.bytes (by simp [source.mStr.length_bytes])
  isLong := source.isLong
  mShortLength := source.mShortLength

/-- The buffer of a long string. -/
def buffer (s : BigString c) : Option Nat := if s.isLong then some s.pointer else none

/-- `size()` and `c_str()` are those of the string. -/
def Reads (h : Heap (List UInt8)) (s : BigString c) (string : List UInt8) : Prop :=
  s.size = string.length ∧ (s.c_str h).map (·.take (s.size + 1)) = some (string ++ [0])

instance (h : Heap (List UInt8)) (s : BigString c) (string : List UInt8) :
    Decidable (s.Reads h string) := inferInstanceAs (Decidable (_ ∧ _))

end BigString

/-- A move clears the object moved from. -/
def bigString (c : BigString.Capacity) :
    ObjectClass (BigString c) (Storage (c.Length + 1)) (List UInt8) (List UInt8) where
  fresh := BigString.fresh
  clear := BigString.clear
  set := BigString.set
  copy := BigString.copy
  release := BigString.clear
  buffer := BigString.buffer
  Reads := BigString.Reads
  empty := []

namespace BigString

/-- Neither the string that is moved nor the one it is moved into is long. -/
def BothShort (target source : BigString c) : Prop := target.isLong = false ∧ source.isLong = false

variable {s target source : BigString c} {h h' : Heap (List UInt8)} {string : List UInt8}

theorem buffer_of_short (hshort : s.isLong = false) : s.buffer = none := by simp [buffer, hshort]

theorem buffer_of_long (hlong : s.isLong = true) : s.buffer = some s.pointer := by
  simp [buffer, hlong]

theorem copy_eq (target source : BigString c) : target.copy source = source := by
  rw [copy, Storage.write_bytes]

theorem Reads.congr (hbuffers : ∀ address, s.buffer = some address →
    h.buffers address = h'.buffers address) (hreads : s.Reads h string) : s.Reads h' string := by
  have hc_str : s.c_str h' = s.c_str h := by
    cases hlong : s.isLong with
    | false => simp [c_str, hlong]
    | true => simp [c_str, hlong, hbuffers s.pointer (buffer_of_long hlong)]
  rwa [Reads, hc_str]

/-- A long string reads as what is in the buffer its pointer leads to. -/
theorem reads_of_long (hlong : s.isLong = true) (hsize : s.mStr.word 8 = string.length)
    (hbuffer : h.buffers s.pointer = some (string ++ [0])) : s.Reads h string := by
  have hsize' : s.size = string.length := by rw [size, if_pos hlong, hsize]
  refine ⟨hsize', ?_⟩
  rw [c_str, if_pos hlong, hbuffer, hsize', Option.map_some, List.take_of_length_le]
  simp

/-- A short string reads as its own bytes. -/
theorem reads_of_short (hshort : s.isLong = false) (hlength : s.mShortLength.toNat = string.length)
    (hbytes : s.mStr.read 0 (string.length + 1) = string ++ [0]) : s.Reads h string := by
  have hsize : s.size = string.length := by simp [size, hshort, hlength]
  refine ⟨hsize, ?_⟩
  rw [hsize, ← hbytes]
  simp [c_str, hshort, Storage.read]

/-! ## What the member functions do -/

theorem snd_clear : (s.clear h).2 = h.without s.buffer := by
  cases hlong : s.isLong with
  | false => simp [clear, buffer, hlong]
  | true => simp [clear, buffer, hlong]

theorem emptied_clear :
    Emptied (bigString c) (fun _ => True) (h.without s.buffer) (s.clear h) where
  heap_eq := snd_clear
  buffer := rfl
  sound := trivial
  reads := by
    refine ⟨rfl, ?_⟩
    have hread : (s.mStr.write 0 [0] (by simp)).read 0 1 = [0] := Storage.read_write_self _ _ rfl
    exact congrArg some hread

theorem filled_set {address : Nat} {result : BigString c × Heap (List UInt8)}
    (hset : s.set string address h = some result) :
    Filled (bigString c) (fun _ => True) (h.without s.buffer) string address result := by
  rw [← snd_clear]
  unfold set at hset
  generalize hclear : s.clear h = cleared at hset ⊢
  obtain ⟨s', h'⟩ := cleared
  dsimp only at hset ⊢
  split at hset
  · split at hset
    · next hlong hmay =>
        obtain ⟨hfree, -, hfits⟩ := hmay
        obtain rfl := Option.some.inj hset
        obtain ⟨hpointer, hsize⟩ := s'.mStr.words_writeWord (a := address) (b := string.length)
          (by omega) (by omega) (by have := c.ge; omega) c.ge
        refine ⟨trivial, reads_of_long rfl hsize ?_,
          .inr ⟨string ++ [0], congrArg some hpointer, hfree, rfl⟩⟩
        rw [pointer, hpointer, Heap.buffers_new_self]
    · cases hset
  · next hshort =>
      obtain rfl := Option.some.inj hset
      have hlength : (UInt8.ofNat string.length).toNat = string.length := by
        have hlt : string.length < 256 := by
          have := c.le
          omega
        exact UInt8.toNat_ofNat_of_lt' hlt
      refine ⟨trivial, reads_of_short rfl hlength ?_, .inl ⟨rfl, rfl⟩⟩
      rw [Storage.read_add, Storage.read_write_before _ _ (by omega),
        Storage.read_write_self _ _ rfl]
      simp only [Nat.zero_add]
      exact congrArg (string ++ ·) (Storage.read_write_self _ _ rfl)

/-- The class keeps its word if no move has a long string on either side. A string that is moved
to itself is cleared. -/
theorem lawful (c : Capacity) :
    Lawful (bigString c) (fun _ => True) BothShort (fun _ => True) where
  reads_congr _ _ _ _ := Reads.congr
  buffer_fresh _ := rfl
  sound_fresh _ := trivial
  clear _ _ _ := emptied_clear
  set _ _ _ _ _ _ := filled_set
  move := by
    rintro target source h string - - hreads ⟨htarget, hsource⟩
    have hcopy : (bigString c).copy target source = source := copy_eq target source
    have hemptied := emptied_clear (s := source) (h := h)
    rw [buffer_of_short hsource] at hemptied
    exact ⟨buffer_of_short htarget, by rw [hcopy], trivial, by rwa [hcopy], hemptied⟩
  move_of_not_suits := by
    intro target source h string _ _ _ hnot htarget _ _
    refine ⟨rfl, ?_⟩
    have hcopy : (bigString c).copy target source = source := copy_eq target source
    have hheap : ((bigString c).release source h).2 = h.without source.buffer := snd_clear
    rw [hcopy, hheap]
    cases hsource : source.isLong with
    | true =>
        have hbuffer := buffer_of_long hsource
        refine .inr (.inl ⟨source.pointer, hbuffer, ?_⟩)
        rw [hbuffer]
        exact Heap.buffers_delete_self ..
    | false =>
        have hlong : target.isLong = true := by
          by_contra hshort
          exact hnot ⟨Bool.eq_false_of_not_eq_true hshort, hsource⟩
        have hbuffer := buffer_of_long hlong
        refine .inl ⟨target.pointer, .inl hbuffer, ?_, ?_⟩
        · rw [buffer_of_short hsource]
          exact htarget target.pointer hbuffer
        · exact fun heq => by cases (buffer_of_short hsource).symm.trans heq
  selfMove := by
    intro s h _ _
    have hcopy : (bigString c).copy s s = s := copy_eq s s
    rw [hcopy]
    exact emptied_clear
  selfMove_of_not_suits _ _ _ hnot := absurd trivial hnot

/-! ## Runs -/

abbrev Event (c : Capacity) := OwnedBuffers.Event (Storage (c.Length + 1)) (List UInt8)

/-- The strings that are alive and the heap of their buffers. -/
abbrev Strings (c : Capacity) := Objects (BigString c) (List UInt8) (List UInt8)

def initial (c : Capacity) : Strings c := Objects.initial (bigString c)

def step (c : Capacity) : Strings c → Event c → Option (Strings c) := Objects.step (bigString c)

/-- Every string is the one last set or moved into it, and every buffer belongs to exactly one
long string. -/
def Right (c : Capacity) : Strings c → Prop := Objects.Right (bigString c)

/-- A move between two strings is between short ones. -/
def ShortMoves (c : Capacity) : Strings c → Event c → Prop :=
  Objects.Suited (bigString c) BothShort fun _ => True

/-- Over every run the strings are right exactly as long as every move between two of them is
between short ones. -/
theorem right_iff_shortMoves {c : Capacity} {run : List (Event c × Strings c)}
    (hrun : IsRun (StepOf (step c)) (initial c) run) :
    AllStates (Right c) run ↔ AllSteps (ShortMoves c) (initial c) run :=
  Objects.right_iff_suited (lawful c) hrun

/-- The smallest capacity that is admitted. -/
def Capacity.least : Capacity := ⟨15, by decide, by decide⟩

def uninitialised : Storage (Capacity.least.Length + 1) := ⟨List.replicate 16 0xCD, rfl⟩

/-- A string of 15 characters is made and moved into a new one. -/
def longMoved : List (Event Capacity.least) :=
  [.constructWith 0 uninitialised (List.replicate 15 0x61) 0x1000,
    .moveConstruct 1 0 uninitialised]

theorem right_iff_shortMoves_longMoved :
    AllStates (Right _) (runOf (step Capacity.least) (initial _) longMoved) ↔
      AllSteps (ShortMoves _) (initial _) (runOf (step Capacity.least) (initial _) longMoved) :=
  right_iff_shortMoves (isRun_runOf _ _ _)

/-- The move deletes the buffer that the new string points to. -/
theorem longMoved_not_right : ¬ ∀ (c : Capacity) (run : List (Event c × Strings c)),
    IsRun (StepOf (step c)) (initial c) run → AllStates (Right c) run := by
  intro hall
  have hstates := hall Capacity.least (runOf (step _) (initial _) longMoved) (isRun_runOf _ _ _)
  have hreads : AllStates (fun s : Strings Capacity.least =>
      ∀ object ∈ s.objects 1, object.Reads s.heap (s.values 1))
      (runOf (step _) (initial _) longMoved) :=
    fun x hx object hobject => (hstates x hx).reads 1 object hobject
  revert hreads
  decide +kernel

end BigString

end NioevMqtt
