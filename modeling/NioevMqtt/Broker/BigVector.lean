-- SUMMARY: `BigVector` refines a plain list, over every run, exactly as long as each move is into a short vector and the bytes that it does not copy are there already.
import NioevMqtt.Library.OwnedBuffers
import NioevMqtt.Library.Storage

/-!
# Vectors that are short or long

A `BigVector` keeps few elements in its own bytes and more of them in a buffer of the heap, and
then its bytes are the pointer and the length. An element is the bytes of its representation.
-/

namespace NioevMqtt

open Runs OwnedBuffers

/-- The element type and the `Length` that the `static_assert`s admit. -/
structure BigVector.Layout where
  Length : Nat
  /-- `sizeof(T)`. -/
  sizeofT : Nat
  /-- The element that `0` is converted to. -/
  zero : Storage sizeofT
  le : Length ≤ 255
  ge : 8 + 8 ≤ Length * sizeofT

structure BigVector (c : BigVector.Layout) where
  isLong : Bool := false
  mShortLength : UInt8 := 0
  mBuffer : Storage (c.Length * c.sizeofT)

namespace BigVector

variable {c : Layout}

theorem Layout.Length_pos (c : Layout) : 0 < c.Length := by
  have := c.ge
  exact Nat.pos_of_mul_pos_right (by omega : 0 < c.Length * c.sizeofT)

theorem Layout.sizeofT_pos (c : Layout) : 0 < c.sizeofT := by
  have := c.ge
  exact Nat.pos_of_mul_pos_left (by omega : 0 < c.Length * c.sizeofT)

theorem Layout.Length_le (c : Layout) : c.Length ≤ c.Length * c.sizeofT :=
  Nat.le_mul_of_pos_right _ c.sizeofT_pos

theorem Layout.sizeofT_le (c : Layout) : c.sizeofT ≤ c.Length * c.sizeofT :=
  Nat.le_mul_of_pos_left _ c.Length_pos

/-- The member initialisers. -/
def fresh (raw : Storage (c.Length * c.sizeofT)) : BigVector c := { mBuffer := raw }

/-- The pointer of a long vector. -/
def pointer (s : BigVector c) : Nat := s.mBuffer.word 0

def size (s : BigVector c) : Nat :=
  if s.isLong then s.mBuffer.word 8 else s.mShortLength.toNat

/-- The memory that `data()` points to, if it is not null. -/
def data (h : Heap (List UInt8)) (s : BigVector c) : Option (List UInt8) :=
  if s.size = 0 then none
  else if s.isLong then h.buffers s.pointer
  else some s.mBuffer.bytes

/-- `operator[]`. -/
def element (h : Heap (List UInt8)) (s : BigVector c) (i : Nat) : Option (List UInt8) :=
  (s.data h).map fun memory => (memory.drop (i * c.sizeofT)).take c.sizeofT

/-- To delete the null pointer does nothing. -/
def clear (s : BigVector c) (h : Heap (List UInt8)) : BigVector c × Heap (List UInt8) :=
  ({ mBuffer := s.mBuffer.write 0 c.zero.bytes (by simp [c.zero.length_bytes, c.sizeofT_le])
     isLong := false
     mShortLength := 0 },
    if s.isLong ∧ s.size ≠ 0 then h.delete s.pointer else h)

theorem length_short {elements : List (Storage c.sizeofT)} (hshort : ¬ c.Length < elements.length) :
    0 + (Storage.arrayBytes elements).length ≤ c.Length * c.sizeofT := by
  rw [Nat.zero_add, Storage.length_arrayBytes]
  exact Nat.mul_le_mul_right _ (Nat.le_of_not_lt hshort)

def set (s : BigVector c) (data : List (Storage c.sizeofT)) (address : Nat)
    (h : Heap (List UInt8)) : Option (BigVector c × Heap (List UInt8)) :=
  let (s, h) := if s.isLong then s.clear h else (s, h)
  if hlong : c.Length < data.length then
    if h.MayReturn address (data.length * c.sizeofT) then
      let mBuffer := s.mBuffer.writeWord 0 address (by have := c.ge; omega)
      let mBuffer := mBuffer.writeWord 8 data.length c.ge
      some ({ s with mBuffer, isLong := true }, h.new address (Storage.arrayBytes data))
    else none
  else
    let mBuffer := s.mBuffer.write 0 (Storage.arrayBytes data) (length_short hlong)
    some ({ mBuffer, mShortLength := UInt8.ofNat data.length, isLong := false }, h)

/-- The assignments to `*this` in `operator=`. What is copied is `mBuffer.size()` bytes. -/
def copy (target source : BigVector c) : BigVector c where
  mBuffer := target.mBuffer.write 0 (source.mBuffer.read 0 c.Length) (by
    rw [Nat.zero_add, source.mBuffer.length_read] <;> simpa using c.Length_le)
  isLong := source.isLong
  mShortLength := source.mShortLength

/-- The assignments to `other`. -/
def release (s : BigVector c) (h : Heap (List UInt8)) : BigVector c × Heap (List UInt8) :=
  ({ s with isLong := false, mShortLength := 0 }, h)

/-- The buffer of a long vector. -/
def buffer (s : BigVector c) : Option Nat := if s.isLong then some s.pointer else none

/-- `size()` and the elements are those of the list. -/
def Reads (h : Heap (List UInt8)) (s : BigVector c) (list : List (Storage c.sizeofT)) : Prop :=
  s.size = list.length ∧ ∀ i (hi : i < list.length), s.element h i = some list[i].bytes

instance (h : Heap (List UInt8)) (s : BigVector c) (list : List (Storage c.sizeofT)) :
    Decidable (s.Reads h list) := inferInstanceAs (Decidable (_ ∧ _))

end BigVector

def bigVector (c : BigVector.Layout) :
    ObjectClass (BigVector c) (Storage (c.Length * c.sizeofT)) (List UInt8)
      (List (Storage c.sizeofT)) where
  fresh := BigVector.fresh
  clear := BigVector.clear
  set := BigVector.set
  copy := BigVector.copy
  release := BigVector.release
  buffer := BigVector.buffer
  Reads := BigVector.Reads
  empty := []

namespace BigVector

/-- How many of its bytes a vector uses: the pointer and the length, or the elements. -/
def used (s : BigVector c) : Nat := if s.isLong then 16 else s.mShortLength.toNat * c.sizeofT

/-- The target is short, and where the source uses bytes that are not copied, the target has the
same. -/
def Completes (target source : BigVector c) : Prop :=
  target.isLong = false ∧
    target.mBuffer.read c.Length (source.used - c.Length) =
      source.mBuffer.read c.Length (source.used - c.Length)

/-- A long vector is not empty. -/
def Sound (s : BigVector c) : Prop := s.isLong = true → s.size ≠ 0

variable {s target source : BigVector c} {h h' : Heap (List UInt8)}
  {list : List (Storage c.sizeofT)}

theorem buffer_of_short (hshort : s.isLong = false) : s.buffer = none := by simp [buffer, hshort]

theorem buffer_of_long (hlong : s.isLong = true) : s.buffer = some s.pointer := by
  simp [buffer, hlong]

/-! ## What is read -/

/-- The elements are read from the memory that `data()` points to. -/
theorem reads_iff : s.Reads h list ↔ s.size = list.length ∧
    (list.length ≠ 0 → (s.data h).map (·.take (list.length * c.sizeofT)) =
      some (Storage.arrayBytes list)) := by
  refine and_congr_right fun hsize => ?_
  cases hdata : s.data h with
  | none =>
      simp only [element, hdata, Option.map_none]
      rcases Nat.eq_zero_or_pos list.length with hzero | hpos
      · simp [hzero]
      · refine iff_of_false (fun hall => ?_) (fun hnone => ?_)
        · cases hall 0 hpos
        · cases hnone hpos.ne'
  | some memory =>
      simp only [element, hdata, Option.map_some, Option.some.injEq]
      rw [← Storage.take_eq_arrayBytes_iff]
      refine ⟨fun heq _ => heq, fun himp => ?_⟩
      rcases Nat.eq_zero_or_pos list.length with hzero | hpos
      · have hnil := List.eq_nil_of_length_eq_zero hzero
        simp [hnil, Storage.arrayBytes]
      · exact himp hpos.ne'

theorem reads_short_iff (hshort : s.isLong = false) : s.Reads h list ↔
    s.mShortLength.toNat = list.length ∧
      s.mBuffer.read 0 (list.length * c.sizeofT) = Storage.arrayBytes list := by
  have hsize : s.size = s.mShortLength.toNat := by simp [size, hshort]
  rw [reads_iff, hsize]
  refine and_congr_right fun hlength => ?_
  rcases Nat.eq_zero_or_pos list.length with hzero | hpos
  · have hnil := List.eq_nil_of_length_eq_zero hzero
    simp [hnil, Storage.arrayBytes, Storage.read]
  · have hne : s.size ≠ 0 := by omega
    simp [data, hne, hshort, hpos.ne', Storage.read]

theorem reads_long_iff (hlong : s.isLong = true) (hsound : s.size ≠ 0) : s.Reads h list ↔
    s.mBuffer.word 8 = list.length ∧
      (h.buffers s.pointer).map (·.take (list.length * c.sizeofT)) =
        some (Storage.arrayBytes list) := by
  have hsize : s.size = s.mBuffer.word 8 := by simp [size, hlong]
  rw [reads_iff, hsize]
  refine and_congr_right fun hlength => ?_
  have hne : list.length ≠ 0 := by omega
  simp [data, hsound, hlong, hne]

theorem Reads.congr (hbuffers : ∀ address, s.buffer = some address →
    h.buffers address = h'.buffers address) (hreads : s.Reads h list) : s.Reads h' list := by
  have hdata : s.data h' = s.data h := by
    cases hlong : s.isLong with
    | false => simp [data, hlong]
    | true => simp [data, hlong, hbuffers s.pointer (buffer_of_long hlong)]
  have helement : s.element h' = s.element h := by
    funext i
    rw [element, element, hdata]
  rwa [Reads, helement]

/-! ## What a move copies -/

/-- The bytes that the source uses are in the target exactly if it had those that are not copied. -/
theorem read_copy_iff :
    (target.copy source).mBuffer.read 0 source.used = source.mBuffer.read 0 source.used ↔
      target.mBuffer.read c.Length (source.used - c.Length) =
        source.mBuffer.read c.Length (source.used - c.Length) := by
  have hlength : (source.mBuffer.read 0 c.Length).length = c.Length :=
    source.mBuffer.length_read (by simpa using c.Length_le)
  have hfits : 0 + (source.mBuffer.read 0 c.Length).length ≤ c.Length * c.sizeofT := by
    rw [hlength, Nat.zero_add]
    exact c.Length_le
  have hcopied : (target.copy source).mBuffer.read 0 c.Length = source.mBuffer.read 0 c.Length :=
    Storage.read_write_self _ hfits hlength
  rcases Nat.le_total source.used c.Length with hle | hle
  · have htake (t : BigVector c) :
        t.mBuffer.read 0 source.used = (t.mBuffer.read 0 c.Length).take source.used := by
      rw [Storage.read, Storage.read, List.take_take, min_eq_left hle]
    refine iff_of_true ?_ (by simp [Nat.sub_eq_zero_of_le hle, Storage.read])
    rw [htake, hcopied, ← htake]
  · have hsplit (t : BigVector c) : t.mBuffer.read 0 source.used =
        t.mBuffer.read 0 c.Length ++ t.mBuffer.read c.Length (source.used - c.Length) := by
      have hadd := t.mBuffer.read_add 0 c.Length (source.used - c.Length)
      rwa [Nat.add_sub_cancel' hle, Nat.zero_add] at hadd
    have hrest (count : Nat) : (target.copy source).mBuffer.read c.Length count =
        target.mBuffer.read c.Length count :=
      Storage.read_write_after _ hfits (by rw [hlength, Nat.zero_add])
    rw [hsplit, hsplit, hcopied, hrest, List.append_right_inj]

/-- A long source is copied if its pointer and its length are. -/
theorem read_copy_long_iff (hlong : source.isLong = true) :
    (target.copy source).mBuffer.read 0 source.used = source.mBuffer.read 0 source.used ↔
      (target.copy source).pointer = source.pointer ∧
        (target.copy source).mBuffer.word 8 = source.mBuffer.word 8 := by
  have hused : source.used = 16 := by simp [used, hlong]
  rw [hused]
  exact Storage.read_eq_iff_word c.ge

/-! ## What the member functions do -/

theorem snd_clear (hsound : s.Sound) : (s.clear h).2 = h.without s.buffer := by
  cases hlong : s.isLong with
  | false => simp [clear, buffer, hlong]
  | true => simp [clear, buffer, hlong, hsound hlong]

theorem reads_nil_of_short (hshort : s.isLong = false) (hlength : s.mShortLength = 0) :
    s.Reads h [] :=
  (reads_short_iff hshort).mpr ⟨by simp [hlength], by simp [Storage.read, Storage.arrayBytes]⟩

theorem emptied_clear (hsound : s.Sound) :
    Emptied (bigVector c) Sound (h.without s.buffer) (s.clear h) where
  heap_eq := snd_clear hsound
  buffer := rfl
  sound := nofun
  reads := reads_nil_of_short rfl rfl

theorem emptied_release : Emptied (bigVector c) Sound h (s.release h) where
  heap_eq := rfl
  buffer := rfl
  sound := nofun
  reads := reads_nil_of_short rfl rfl

theorem filled_set {address : Nat} {result : BigVector c × Heap (List UInt8)}
    (hsound : s.Sound) (hset : s.set list address h = some result) :
    Filled (bigVector c) Sound (h.without s.buffer) list address result := by
  have hcleared : (if s.isLong then s.clear h else (s, h)).2 = h.without s.buffer := by
    cases hlong : s.isLong with
    | false => simp [buffer_of_short hlong]
    | true => simpa using snd_clear hsound
  rw [← hcleared]
  unfold set at hset
  generalize (if s.isLong then s.clear h else (s, h)) = cleared at hset ⊢
  obtain ⟨s', h'⟩ := cleared
  dsimp only at hset ⊢
  split at hset
  · split at hset
    · next hlong hmay =>
        obtain ⟨hfree, hpos, hfits⟩ := hmay
        obtain rfl := Option.some.inj hset
        have hle : list.length ≤ list.length * c.sizeofT :=
          Nat.le_mul_of_pos_right _ c.sizeofT_pos
        obtain ⟨hpointer, hsize⟩ := s'.mBuffer.words_writeWord (a := address) (b := list.length)
          (by omega) (by omega) (by have := c.ge; omega) c.ge
        generalize (s'.mBuffer.writeWord 0 address _).writeWord 8 list.length _ = mBuffer
          at hpointer hsize ⊢
        have hne : list.length ≠ 0 := by omega
        refine ⟨fun _ => hsize.trans_ne hne, ?_,
          .inr ⟨Storage.arrayBytes list, congrArg some hpointer, hfree, rfl⟩⟩
        refine (reads_long_iff (s := ⟨true, s'.mShortLength, mBuffer⟩) rfl
          (hsize.trans_ne hne)).mpr ⟨hsize, ?_⟩
        rw [pointer, hpointer, Heap.buffers_new_self, Option.map_some,
          List.take_of_length_le (Storage.length_arrayBytes list).le]
    · cases hset
  · next hshort =>
      obtain rfl := Option.some.inj hset
      have hlength : (UInt8.ofNat list.length).toNat = list.length := by
        have hlt : list.length < 256 := by
          have := c.le
          omega
        exact UInt8.toNat_ofNat_of_lt' hlt
      refine ⟨nofun, (reads_short_iff rfl).mpr ⟨hlength, ?_⟩, .inl ⟨rfl, rfl⟩⟩
      exact Storage.read_write_self _ (length_short hshort) (Storage.length_arrayBytes list)

/-- A move that is completed by the target hands over what the source holds. -/
theorem handedOver (hsound : source.Sound) (hreads : source.Reads h list)
    (hcompletes : target.Completes source) :
    HandedOver (bigVector c) Sound h list target source := by
  obtain ⟨htarget, hrest⟩ := hcompletes
  have hcopied := read_copy_iff.mpr hrest
  cases hsource : source.isLong with
  | false =>
      have hcopy : (target.copy source).isLong = false := hsource
      obtain ⟨hlength, hbytes⟩ := (reads_short_iff hsource).mp hreads
      have hused : source.used = list.length * c.sizeofT := by simp [used, hsource, hlength]
      rw [hused] at hcopied
      refine ⟨buffer_of_short htarget, ?_, ?_, ?_, emptied_release⟩
      · exact (buffer_of_short hcopy).trans (buffer_of_short hsource).symm
      · exact fun hlong => Bool.noConfusion (hcopy.symm.trans hlong)
      · exact (reads_short_iff hcopy).mpr ⟨hlength, hcopied.trans hbytes⟩
  | true =>
      have hcopy : (target.copy source).isLong = true := hsource
      obtain ⟨hpointer, hword⟩ := (read_copy_long_iff hsource).mp hcopied
      have hsize : (target.copy source).size = source.size := by
        rw [size, size, if_pos hcopy, if_pos hsource, hword]
      have hne := hsound hsource
      obtain ⟨hlength, hbytes⟩ := (reads_long_iff hsource hne).mp hreads
      refine ⟨buffer_of_short htarget, ?_, ?_, ?_, emptied_release⟩
      · exact (buffer_of_long hcopy).trans ((congrArg some hpointer).trans (buffer_of_long hsource).symm)
      · exact fun _ => hsize.trans_ne hne
      · refine (reads_long_iff hcopy (hsize.trans_ne hne)).mpr ⟨hword.trans hlength, ?_⟩
        rwa [hpointer]

/-- The pointer and the length of a long source are both right in the target, or the buffer is
not the target's, or the length is not the list's. -/
theorem completes_of_reads_copy (htarget : target.isLong = false) (hreads : source.Reads h list)
    (hbuffer : (target.copy source).buffer = source.buffer)
    (hcopy : (target.copy source).Reads h list) : target.Completes source := by
  refine ⟨htarget, read_copy_iff.mp ?_⟩
  cases hsource : source.isLong with
  | false =>
      obtain ⟨hlength, hbytes⟩ := (reads_short_iff hsource).mp hreads
      have hused : source.used = list.length * c.sizeofT := by simp [used, hsource, hlength]
      rw [hused, hbytes]
      exact ((reads_short_iff (s := target.copy source) hsource).mp hcopy).2
  | true =>
      have hlong : (target.copy source).isLong = true := hsource
      rw [buffer_of_long hlong, buffer_of_long hsource] at hbuffer
      refine (read_copy_long_iff hsource).mpr ⟨Option.some.inj hbuffer, ?_⟩
      have hlength := hcopy.1.trans hreads.1.symm
      simpa [size, hlong, hsource] using hlength

/-- The class keeps its word if each move is into a short vector that completes it. A vector that
is moved to itself may not be long. -/
theorem lawful (c : Layout) :
    Lawful (bigVector c) Sound Completes fun s => s.isLong = false where
  reads_congr _ _ _ _ := Reads.congr
  buffer_fresh _ := rfl
  sound_fresh _ := nofun
  clear _ _ := emptied_clear
  set _ _ _ _ _ := filled_set
  move _ _ _ _ _ := handedOver
  move_of_not_suits := by
    intro target source h list _ _ hreads hnot htarget hdistinct hsource
    refine ⟨rfl, ?_⟩
    cases hlong : target.isLong with
    | true =>
        have hbuffer := buffer_of_long hlong
        by_cases hcopy : (target.copy source).buffer = some target.pointer
        · -- the buffer of the source is left without an owner
          cases hs : source.isLong with
          | false => cases (buffer_of_short (s := target.copy source) hs).symm.trans hcopy
          | true =>
              have hsbuffer := buffer_of_long hs
              refine .inl ⟨source.pointer, .inr hsbuffer, hsource _ hsbuffer, fun heq => ?_⟩
              have hsame : target.pointer = source.pointer :=
                Option.some.inj (hcopy.symm.trans heq)
              exact hdistinct _ hbuffer (hsame ▸ hsbuffer)
        · exact .inl ⟨target.pointer, .inl hbuffer, htarget _ hbuffer, hcopy⟩
    | false =>
        by_cases hcopy : (target.copy source).buffer = source.buffer
        · exact .inr (.inr fun h' => hnot (completes_of_reads_copy hlong hreads hcopy h'))
        · cases hs : source.isLong with
          | false =>
              have hshort := buffer_of_short (s := target.copy source) hs
              exact absurd (hshort.trans (buffer_of_short hs).symm) hcopy
          | true =>
              have hsbuffer := buffer_of_long hs
              refine .inl ⟨source.pointer, .inr hsbuffer, hsource _ hsbuffer, fun heq => ?_⟩
              exact hcopy (heq.trans hsbuffer.symm)
  selfMove := by
    intro s h _ hshort
    have hcopy : ((bigVector c).copy s s).isLong = false := hshort
    have hbuffer : (bigVector c).buffer s = none := buffer_of_short hshort
    rw [hbuffer]
    exact emptied_release
  selfMove_of_not_suits := by
    intro s h _ hnot
    refine ⟨rfl, rfl, ?_⟩
    have hlong : s.isLong = true := Bool.eq_true_of_not_eq_false hnot
    have hbuffer : (bigVector c).buffer s = some s.pointer := buffer_of_long hlong
    rw [hbuffer]
    rfl

/-! ## Runs -/

abbrev Event (c : Layout) :=
  OwnedBuffers.Event (Storage (c.Length * c.sizeofT)) (List (Storage c.sizeofT))

/-- The vectors that are alive and the heap of their buffers. -/
abbrev Vectors (c : Layout) := Objects (BigVector c) (List UInt8) (List (Storage c.sizeofT))

def initial (c : Layout) : Vectors c := Objects.initial (bigVector c)

def step (c : Layout) : Vectors c → Event c → Option (Vectors c) := Objects.step (bigVector c)

/-- Every vector is the list last set or moved into it, and every buffer belongs to exactly one
long vector. -/
def Right (c : Layout) : Vectors c → Prop := Objects.Right (bigVector c)

/-- A move is into a short vector that completes it, or from a short vector to itself. -/
def CompletedMoves (c : Layout) : Vectors c → Event c → Prop :=
  Objects.Suited (bigVector c) Completes fun s => s.isLong = false

/-- Over every run the vectors are right exactly as long as every move is into a short vector
that completes it. -/
theorem right_iff_completedMoves {c : Layout} {run : List (Event c × Vectors c)}
    (hrun : IsRun (StepOf (step c)) (initial c) run) :
    AllStates (Right c) run ↔ AllSteps (CompletedMoves c) (initial c) run :=
  Objects.right_iff_suited (lawful c) hrun

/-- Four elements of four bytes. -/
def Layout.words : Layout := ⟨4, 4, ⟨[0, 0, 0, 0], rfl⟩, by decide, by decide⟩

/-- The numbers 1 and 2 are put into a vector, which is moved into a new one. -/
def wordsMoved : List (Event Layout.words) :=
  let uninitialised : Storage (Layout.words.Length * Layout.words.sizeofT) :=
    ⟨List.replicate 16 0xAB, rfl⟩
  [.constructWith 0 uninitialised [⟨[1, 0, 0, 0], rfl⟩, ⟨[2, 0, 0, 0], rfl⟩] 0x1000,
    .moveConstruct 1 0 uninitialised]

theorem right_iff_completedMoves_wordsMoved :
    AllStates (Right _) (runOf (step Layout.words) (initial _) wordsMoved) ↔
      AllSteps (CompletedMoves _) (initial _) (runOf (step Layout.words) (initial _) wordsMoved) :=
  right_iff_completedMoves (isRun_runOf _ _ _)

/-- The move copies four bytes, which are the number 1. -/
theorem wordsMoved_not_right : ¬ ∀ (c : Layout) (run : List (Event c × Vectors c)),
    IsRun (StepOf (step c)) (initial c) run → AllStates (Right c) run := by
  intro hall
  have hstates := hall Layout.words (runOf (step _) (initial _) wordsMoved) (isRun_runOf _ _ _)
  have hreads : AllStates (fun s : Vectors Layout.words =>
      ∀ object ∈ s.objects 1, object.Reads s.heap (s.values 1))
      (runOf (step _) (initial _) wordsMoved) :=
    fun x hx object hobject => (hstates x hx).reads 1 object hobject
  revert hreads
  decide +kernel

end BigVector

end NioevMqtt
