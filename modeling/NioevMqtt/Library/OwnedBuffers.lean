-- SUMMARY: Objects that keep what they hold in themselves or in a buffer of the heap: the runs in which every buffer belongs to one object and every object reads as its value.
import Mathlib.Algebra.Ring.Nat
import Mathlib.Logic.Function.Basic
import NioevMqtt.Library.Runs

/-!
# Objects that own buffers

A class has member functions that set, clear and move its objects. An object may keep what it
holds in a buffer that it allocates and has to delete. The program that uses the class sees
values: what it last put into an object. Every sequence of calls is a run, and the runs in which
objects and values agree are those whose moves all suit the class.
-/

namespace OwnedBuffers

open Runs Function

universe u

variable {ω ρ β ν : Type u}

/-! ## The heap -/

structure Heap (β : Type u) where
  /-- The buffers, by their address. -/
  buffers : Nat → Option β := fun _ => none
  /-- How often something was deleted where no buffer is. -/
  faults : Nat := 0

namespace Heap

def new (h : Heap β) (address : Nat) (buffer : β) : Heap β :=
  { h with buffers := update h.buffers address (some buffer) }

def delete (h : Heap β) (address : Nat) : Heap β :=
  match h.buffers address with
  | none => { h with faults := h.faults + 1 }
  | some _ => { h with buffers := update h.buffers address none }

/-- `new` may return this address, for so many bytes. -/
def MayReturn (h : Heap β) (address bytes : Nat) : Prop :=
  h.buffers address = none ∧ 0 < address ∧ address + bytes ≤ 2 ^ 64

instance (h : Heap β) (address bytes : Nat) : Decidable (h.MayReturn address bytes) :=
  inferInstanceAs (Decidable (_ ∧ _))

/-- What is left when the buffer of an object, if it has one, is deleted. -/
def without (h : Heap β) : Option Nat → Heap β
  | none => h
  | some address => h.delete address

@[simp] theorem without_none (h : Heap β) : h.without none = h := rfl

@[simp] theorem without_some (h : Heap β) (address : Nat) :
    h.without (some address) = h.delete address := rfl

@[simp] theorem buffers_new_self (h : Heap β) (address : Nat) (buffer : β) :
    (h.new address buffer).buffers address = some buffer := update_self ..

theorem buffers_new_of_ne (h : Heap β) {address other : Nat} (hne : other ≠ address)
    (buffer : β) : (h.new address buffer).buffers other = h.buffers other := update_of_ne hne ..

theorem faults_delete {h : Heap β} {address : Nat} (hsome : (h.buffers address).isSome) :
    (h.delete address).faults = h.faults := by
  obtain ⟨buffer, hbuffer⟩ := Option.isSome_iff_exists.mp hsome
  rw [delete, hbuffer]

theorem buffers_delete_self (h : Heap β) (address : Nat) :
    (h.delete address).buffers address = none := by
  unfold delete
  split
  · assumption
  · exact update_self ..

theorem buffers_delete_of_ne (h : Heap β) {address other : Nat} (hne : other ≠ address) :
    (h.delete address).buffers other = h.buffers other := by
  unfold delete
  split
  · rfl
  · exact update_of_ne hne ..

end Heap

/-! ## Ownership -/

/-- Every buffer has an owner, every owner's buffer is there, and no two have one in common. -/
structure Owned (owner : Nat → Option Nat) (h : Heap β) : Prop where
  allocated : ∀ address, (h.buffers address).isSome ↔ ∃ id, owner id = some address
  unique : ∀ i j address, owner i = some address → owner j = some address → i = j

namespace Owned

variable {owner : Nat → Option Nat} {h : Heap β} {id : Nat}

theorem isSome (ho : Owned owner h) {address : Nat} (howner : owner id = some address) :
    (h.buffers address).isSome := (ho.allocated address).mpr ⟨id, howner⟩

/-- The owner deletes its buffer. -/
theorem without (ho : Owned owner h) : Owned (update owner id none) (h.without (owner id)) := by
  have howner (i address : Nat) :
      update owner id none i = some address ↔ i ≠ id ∧ owner i = some address := by
    rcases eq_or_ne i id with heq | hne
    · simp [heq]
    · simp [hne]
  refine ⟨fun address => ?_, fun i j address hi hj => ?_⟩
  · simp only [howner]
    cases hid : owner id with
    | none =>
        rw [Heap.without_none, ho.allocated]
        refine exists_congr fun i => (and_iff_right_of_imp fun hi => ?_).symm
        rintro rfl
        simp [hid] at hi
    | some deleted =>
        rw [Heap.without_some]
        rcases eq_or_ne address deleted with rfl | hne
        · rw [Heap.buffers_delete_self]
          refine iff_of_false (by simp) ?_
          rintro ⟨i, hne, hi⟩
          exact hne (ho.unique i id address hi hid)
        · rw [Heap.buffers_delete_of_ne h hne, ho.allocated]
          refine exists_congr fun i => (and_iff_right_of_imp fun hi => ?_).symm
          rintro rfl
          exact hne (Option.some.inj (hi.symm.trans hid))
  · exact ho.unique i j address ((howner i address).mp hi).2 ((howner j address).mp hj).2

/-- An object that has no buffer allocates one. -/
theorem new (ho : Owned owner h) (hid : owner id = none) {address : Nat}
    (hfree : h.buffers address = none) (buffer : β) :
    Owned (update owner id (some address)) (h.new address buffer) := by
  have howner (i other : Nat) : update owner id (some address) i = some other ↔
      (i = id ∧ other = address) ∨ owner i = some other := by
    rcases eq_or_ne i id with heq | hne
    · simp [heq, hid, eq_comm]
    · simp [hne]
  have hnot (i : Nat) : owner i ≠ some address := by
    intro hi
    have hsome := ho.isSome hi
    simp [hfree] at hsome
  refine ⟨fun other => ?_, fun i j other hi hj => ?_⟩
  · rcases eq_or_ne other address with rfl | hne
    · exact iff_of_true (by simp) ⟨id, update_self ..⟩
    · rw [Heap.buffers_new_of_ne h hne, ho.allocated]
      exact exists_congr fun i => by simp [howner, hne]
  · rcases (howner i other).mp hi with ⟨rfl, rfl⟩ | hold
    · exact (((howner j other).mp hj).resolve_right (hnot j)).1.symm
    · rcases (howner j other).mp hj with ⟨rfl, rfl⟩ | hold'
      · exact absurd hold (hnot i)
      · exact ho.unique i j other hold hold'

/-- An object hands its buffer over to one that has none. -/
theorem handOver (ho : Owned owner h) (hid : owner id = none) {source : Nat} (hne : id ≠ source) :
    Owned (update (update owner id (owner source)) source none) h := by
  have howner (i address : Nat) :
      update (update owner id (owner source)) source none i = some address ↔
        (i = id ∧ owner source = some address) ∨ (i ≠ source ∧ owner i = some address) := by
    rcases eq_or_ne i source with heq | his
    · simp [heq, hne.symm]
    · rw [update_of_ne his]
      rcases eq_or_ne i id with heq | hiid
      · simp [heq, hid]
      · simp [hiid, his]
  refine ⟨fun address => ?_, fun i j address hi hj => ?_⟩
  · rw [ho.allocated]
    simp only [howner]
    constructor
    · rintro ⟨i, hi⟩
      rcases eq_or_ne i source with heq | his
      · exact ⟨id, .inl ⟨rfl, heq ▸ hi⟩⟩
      · exact ⟨i, .inr ⟨his, hi⟩⟩
    · rintro ⟨i, ⟨-, hi⟩ | ⟨-, hi⟩⟩
      · exact ⟨source, hi⟩
      · exact ⟨i, hi⟩
  · rcases (howner i address).mp hi with ⟨rfl, hsource⟩ | ⟨his, hold⟩
    · rcases (howner j address).mp hj with ⟨rfl, -⟩ | ⟨hjs, hold'⟩
      · rfl
      · exact absurd (ho.unique j source address hold' hsource) hjs
    · rcases (howner j address).mp hj with ⟨rfl, hsource⟩ | ⟨-, hold'⟩
      · exact absurd (ho.unique i source address hold hsource) his
      · exact ho.unique i j address hold hold'

/-- The buffers of the others stay. -/
theorem buffers_without (ho : Owned owner h) {other address : Nat} (hne : other ≠ id)
    (hother : owner other = some address) :
    (h.without (owner id)).buffers address = h.buffers address := by
  cases hid : owner id with
  | none => rfl
  | some deleted =>
      refine Heap.buffers_delete_of_ne h ?_
      rintro rfl
      exact hne (ho.unique other id address hother hid)

theorem faults_without (ho : Owned owner h) : (h.without (owner id)).faults = h.faults := by
  cases hid : owner id with
  | none => rfl
  | some deleted => exact Heap.faults_delete (ho.isSome hid)

end Owned

/-! ## Classes and their objects -/

structure ObjectClass (ω ρ β ν : Type u) where
  /-- An object before the body of its constructor runs, over uninitialised memory. -/
  fresh : ρ → ω
  clear : ω → Heap β → ω × Heap β
  /-- The address is the one that a `new` in it returns. -/
  set : ω → ν → Nat → Heap β → Option (ω × Heap β)
  /-- What a move does to the object it moves into, which is the first one. -/
  copy : ω → ω → ω
  /-- What a move does then to the object it moves from. -/
  release : ω → Heap β → ω × Heap β
  /-- The buffer that an object is to delete. -/
  buffer : ω → Option Nat
  /-- What is read through the object is the value. -/
  Reads : Heap β → ω → ν → Prop
  empty : ν

/-- The objects that are alive, and what was last set or moved into them. -/
structure Objects (ω β ν : Type u) where
  objects : Nat → Option ω
  heap : Heap β
  values : Nat → ν

inductive Event (ρ ν : Type u) where
  | construct (id : Nat) (raw : ρ)
  | constructWith (id : Nat) (raw : ρ) (value : ν) (address : Nat)
  | set (id : Nat) (value : ν) (address : Nat)
  | clear (id : Nat)
  | moveConstruct (id source : Nat) (raw : ρ)
  | moveAssign (id source : Nat)
  | destroy (id : Nat)

namespace Objects

/-- An object is what a function made of it, and so is the heap. -/
def put (s : Objects ω β ν) (id : Nat) (result : ω × Heap β) (value : ν) : Objects ω β ν where
  objects := update s.objects id (some result.1)
  heap := result.2
  values := update s.values id value

/-- A move into `target`, which is to be the object `id`. If it is the source, too, it is
released as the source. -/
def move (C : ObjectClass ω ρ β ν) (s : Objects ω β ν) (id : Nat) (target : ω) (source : Nat) :
    Option (Objects ω β ν) := do
  let object ← s.objects source
  let copied := s.put id (C.copy target object, s.heap) (s.values source)
  let moved ← copied.objects source
  return copied.put source (C.release moved s.heap) C.empty

def step (C : ObjectClass ω ρ β ν) (s : Objects ω β ν) : Event ρ ν → Option (Objects ω β ν)
  | .construct id raw =>
    match s.objects id with
    | some _ => none
    | none => some (s.put id (C.clear (C.fresh raw) s.heap) C.empty)
  | .constructWith id raw value address =>
    match s.objects id with
    | some _ => none
    | none => (C.set (C.fresh raw) value address s.heap).map fun result => s.put id result value
  | .set id value address => do
    let object ← s.objects id
    let result ← C.set object value address s.heap
    return s.put id result value
  | .clear id => do
    let object ← s.objects id
    return s.put id (C.clear object s.heap) C.empty
  | .moveConstruct id source raw =>
    match s.objects id with
    | some _ => none
    | none => s.move C id (C.fresh raw) source
  | .moveAssign id source => do
    let target ← s.objects id
    s.move C id target source
  | .destroy id => do
    let object ← s.objects id
    return { s with
      objects := update s.objects id none
      heap := (C.clear object s.heap).2 }

/-- No object yet. -/
def initial (C : ObjectClass ω ρ β ν) : Objects ω β ν where
  objects _ := none
  heap := {}
  values _ := C.empty

/-- The buffer that an object owns. -/
def owner (C : ObjectClass ω ρ β ν) (s : Objects ω β ν) (id : Nat) : Option Nat :=
  (s.objects id).bind C.buffer

/-- Nothing was deleted that was not there, every buffer belongs to exactly one object and every
object reads as its value. -/
structure Right (C : ObjectClass ω ρ β ν) (s : Objects ω β ν) : Prop where
  faults : s.heap.faults = 0
  owned : Owned (s.owner C) s.heap
  reads : ∀ id object, s.objects id = some object → C.Reads s.heap object (s.values id)

/-- The moves of a run suit the class: what is moved, and what it is moved into. -/
def Suited (C : ObjectClass ω ρ β ν) (Suits : ω → ω → Prop) (SelfSuits : ω → Prop)
    (s : Objects ω β ν) : Event ρ ν → Prop
  | .moveConstruct _ source raw => ∀ object ∈ s.objects source, Suits (C.fresh raw) object
  | .moveAssign id source => ∀ target ∈ s.objects id, ∀ object ∈ s.objects source,
    if id = source then SelfSuits object else Suits target object
  | _ => True

end Objects

/-! ## Laws -/

/-- A function left an empty object without a buffer, and this heap. -/
structure Emptied (C : ObjectClass ω ρ β ν) (Sound : ω → Prop) (heap : Heap β)
    (result : ω × Heap β) : Prop where
  heap_eq : result.2 = heap
  buffer : C.buffer result.1 = none
  sound : Sound result.1
  reads : C.Reads heap result.1 C.empty

/-- A function left an object with the value in it, or in a buffer that it allocated. -/
structure Filled (C : ObjectClass ω ρ β ν) (Sound : ω → Prop) (heap : Heap β) (value : ν)
    (address : Nat) (result : ω × Heap β) : Prop where
  sound : Sound result.1
  reads : C.Reads result.2 result.1 value
  kept : (C.buffer result.1 = none ∧ result.2 = heap) ∨
    (∃ buffer, C.buffer result.1 = some address ∧ heap.buffers address = none ∧
      result.2 = heap.new address buffer)

/-- A move handed over what the object holds, and its buffer. -/
structure HandedOver (C : ObjectClass ω ρ β ν) (Sound : ω → Prop) (heap : Heap β) (value : ν)
    (target source : ω) : Prop where
  unowned : C.buffer target = none
  buffer : C.buffer (C.copy target source) = C.buffer source
  sound : Sound (C.copy target source)
  reads : C.Reads heap (C.copy target source) value
  released : Emptied C Sound heap (C.release source heap)

/-- What the member functions of a class do, over the objects of an invariant, if moves are right
exactly when they suit it. -/
structure Lawful (C : ObjectClass ω ρ β ν) (Sound : ω → Prop) (Suits : ω → ω → Prop)
    (SelfSuits : ω → Prop) : Prop where
  reads_congr : ∀ object (h h' : Heap β) value,
    (∀ address, C.buffer object = some address → h.buffers address = h'.buffers address) →
    C.Reads h object value → C.Reads h' object value
  buffer_fresh : ∀ raw, C.buffer (C.fresh raw) = none
  sound_fresh : ∀ raw, Sound (C.fresh raw)
  clear : ∀ object h, Sound object →
    Emptied C Sound (h.without (C.buffer object)) (C.clear object h)
  set : ∀ object value address h result, Sound object →
    C.set object value address h = some result →
    Filled C Sound (h.without (C.buffer object)) value address result
  move : ∀ target source h value, Sound target → Sound source → C.Reads h source value →
    Suits target source → HandedOver C Sound h value target source
  /-- The target of a move that does not suit is not the owner of the buffers that are left, or
  has one that is not there, or does not read as the value. -/
  move_of_not_suits : ∀ target source h value, Sound target → Sound source →
    C.Reads h source value → ¬ Suits target source →
    (∀ address, C.buffer target = some address → (h.buffers address).isSome) →
    (∀ address, C.buffer target = some address → C.buffer source ≠ some address) →
    (∀ address, C.buffer source = some address → (h.buffers address).isSome) →
    C.buffer (C.release source h).1 = none ∧
      ((∃ address, (C.buffer target = some address ∨ C.buffer source = some address) ∧
        ((C.release source h).2.buffers address).isSome ∧
        C.buffer (C.copy target source) ≠ some address) ∨
      (∃ address, C.buffer (C.copy target source) = some address ∧
        (C.release source h).2.buffers address = none) ∨
      ¬ C.Reads (C.release source h).2 (C.copy target source) value)
  selfMove : ∀ object h, Sound object → SelfSuits object →
    Emptied C Sound (h.without (C.buffer object)) (C.release (C.copy object object) h)
  selfMove_of_not_suits : ∀ object h, Sound object → ¬ SelfSuits object →
    C.buffer (C.release (C.copy object object) h).1 = none ∧
      (C.release (C.copy object object) h).2 = h ∧ (C.buffer object).isSome

namespace Objects

variable {C : ObjectClass ω ρ β ν} {Sound : ω → Prop} {Suits : ω → ω → Prop}
  {SelfSuits : ω → Prop} {s t : Objects ω β ν} {id : Nat} {result : ω × Heap β} {value : ν}

/-! ## One object changes -/

@[simp] theorem objects_put :
    (s.put id result value).objects = update s.objects id (some result.1) := rfl

@[simp] theorem heap_put : (s.put id result value).heap = result.2 := rfl

@[simp] theorem values_put : (s.put id result value).values = update s.values id value := rfl

theorem owner_eq {object : ω} (hobject : s.objects id = some object) :
    s.owner C id = C.buffer object := by rw [owner, hobject, Option.bind_some]

/-- Where there is no object, one may be made. -/
theorem owner_eq_fresh (hC : Lawful C Sound Suits SelfSuits) (hnone : s.objects id = none)
    (raw : ρ) : s.owner C id = C.buffer (C.fresh raw) := by
  rw [owner, hnone, Option.bind_none, hC.buffer_fresh]

@[simp] theorem owner_put :
    (s.put id result value).owner C = update (s.owner C) id (C.buffer result.1) := by
  funext i
  rcases eq_or_ne i id with rfl | hne
  · simp [owner, put]
  · simp [owner, put, hne]

theorem Right.put (hC : Lawful C Sound Suits SelfSuits) (h : Right C s)
    (hfaults : result.2.faults = 0)
    (howned : Owned (update (s.owner C) id (C.buffer result.1)) result.2)
    (hframe : ∀ other ≠ id, ∀ address, s.owner C other = some address →
      result.2.buffers address = s.heap.buffers address)
    (hreads : C.Reads result.2 result.1 value) : Right C (s.put id result value) where
  faults := hfaults
  owned := by rwa [owner_put]
  reads := by
    intro other object hobject
    rcases eq_or_ne other id with rfl | hne
    · rw [objects_put, update_self] at hobject
      obtain rfl := Option.some.inj hobject
      rwa [heap_put, values_put, update_self]
    · rw [objects_put, update_of_ne hne] at hobject
      rw [heap_put, values_put, update_of_ne hne]
      refine hC.reads_congr object s.heap _ _ (fun address haddress => ?_)
        (h.reads other object hobject)
      exact (hframe other hne address ((owner_eq hobject).trans haddress)).symm

theorem Right.put_emptied (hC : Lawful C Sound Suits SelfSuits) (h : Right C s)
    (hresult : Emptied C Sound (s.heap.without (s.owner C id)) result) :
    Right C (s.put id result C.empty) := by
  refine h.put hC ?_ ?_ ?_ ?_
  · rw [hresult.heap_eq, h.owned.faults_without, h.faults]
  · rw [hresult.heap_eq, hresult.buffer]
    exact h.owned.without
  · intro other hne address hother
    rw [hresult.heap_eq, h.owned.buffers_without hne hother]
  · rw [hresult.heap_eq]
    exact hresult.reads

theorem Right.put_filled (hC : Lawful C Sound Suits SelfSuits) (h : Right C s) {address : Nat}
    (hresult : Filled C Sound (s.heap.without (s.owner C id)) value address result) :
    Right C (s.put id result value) := by
  have howned : Owned (update (s.owner C) id none) (s.heap.without (s.owner C id)) :=
    h.owned.without
  rcases hresult.kept with ⟨hbuffer, hheap⟩ | ⟨buffer, hbuffer, hfree, hheap⟩
  · refine h.put hC ?_ ?_ ?_ hresult.reads
    · rw [hheap, h.owned.faults_without, h.faults]
    · rwa [hheap, hbuffer]
    · intro other hne address hother
      rw [hheap, h.owned.buffers_without hne hother]
  · refine h.put hC ?_ ?_ ?_ hresult.reads
    · rw [hheap, Heap.new, h.owned.faults_without, h.faults]
    · rw [hheap, hbuffer]
      have hnew := howned.new (update_self ..) hfree buffer
      rwa [update_idem] at hnew
    · intro other hne taken hother
      have hwithout := h.owned.buffers_without hne hother
      have hsome := h.owned.isSome hother
      rw [hheap, Heap.buffers_new_of_ne, hwithout]
      rintro rfl
      rw [← hwithout, hfree] at hsome
      simp at hsome

theorem Right.destroy (hC : Lawful C Sound Suits SelfSuits) (h : Right C s)
    (hresult : Emptied C Sound (s.heap.without (s.owner C id)) result) :
    Right C { s with objects := update s.objects id none, heap := result.2 } := by
  have howner : owner C { s with objects := update s.objects id none, heap := result.2 } =
      update (s.owner C) id none := by
    funext i
    rcases eq_or_ne i id with rfl | hne
    · simp [owner]
    · simp [owner, hne]
  refine ⟨?_, ?_, fun other object hobject => ?_⟩
  · exact (congrArg Heap.faults hresult.heap_eq).trans (h.owned.faults_without.trans h.faults)
  · rw [howner]
    exact hresult.heap_eq ▸ h.owned.without
  · dsimp only at hobject ⊢
    rcases eq_or_ne other id with rfl | hne
    · simp at hobject
    · rw [update_of_ne hne] at hobject
      refine hC.reads_congr object s.heap _ _ (fun address haddress => ?_)
        (h.reads other object hobject)
      have hother : s.owner C other = some address := (owner_eq hobject).trans haddress
      rw [hresult.heap_eq, h.owned.buffers_without hne hother]

/-- Every object is in the invariant of the class. -/
def AllSound (Sound : ω → Prop) (s : Objects ω β ν) : Prop :=
  ∀ id object, s.objects id = some object → Sound object

theorem AllSound.put (h : AllSound Sound s) (hresult : Sound result.1) :
    AllSound Sound (s.put id result value) := by
  intro other object hobject
  rcases eq_or_ne other id with rfl | hne
  · rw [objects_put, update_self] at hobject
    rwa [← Option.some.inj hobject]
  · rw [objects_put, update_of_ne hne] at hobject
    exact h other object hobject

/-! ## Moves -/

variable {source : Nat} {target object : ω}

/-- What a move between two objects leads to. -/
def moved (C : ObjectClass ω ρ β ν) (s : Objects ω β ν) (id : Nat) (target : ω) (source : Nat)
    (object : ω) : Objects ω β ν :=
  (s.put id (C.copy target object, s.heap) (s.values source)).put source
    (C.release object s.heap) C.empty

theorem move_of_ne (hne : id ≠ source) (hsource : s.objects source = some object) :
    s.move C id target source = some (s.moved C id target source object) := by
  simp [move, moved, hsource, hne.symm]

theorem move_self (hobject : s.objects id = some object) :
    s.move C id object id =
      some (s.put id (C.release (C.copy object object) s.heap) C.empty) := by
  simp [move, put, hobject]

theorem owner_moved :
    (s.moved C id target source object).owner C =
      update (update (s.owner C) id (C.buffer (C.copy target object))) source
        (C.buffer (C.release object s.heap).1) := by
  rw [moved, owner_put, owner_put]

theorem AllSound.moved (h : AllSound Sound s)
    (hmove : HandedOver C Sound s.heap (s.values source) target object) :
    AllSound Sound (s.moved C id target source object) :=
  AllSound.put (AllSound.put h hmove.sound) hmove.released.sound

/-- A buffer that was handed over has one owner, as before. -/
theorem Right.moved (h : Right C s) (hid : s.owner C id = C.buffer target) (hne : id ≠ source)
    (hsource : s.objects source = some object)
    (hmove : HandedOver C Sound s.heap (s.values source) target object) :
    Right C (s.moved C id target source object) := by
  have hheap : (s.moved C id target source object).heap = s.heap := hmove.released.heap_eq
  have howner : s.owner C source = C.buffer object := owner_eq hsource
  refine ⟨hheap ▸ h.faults, ?_, fun other moved hother => ?_⟩
  · rw [owner_moved, hheap, hmove.buffer, hmove.released.buffer, ← howner]
    exact h.owned.handOver (hid.trans hmove.unowned) hne
  · rw [hheap]
    rcases eq_or_ne other source with rfl | hns
    · simp only [Objects.moved, objects_put, values_put, update_self] at hother ⊢
      obtain rfl := Option.some.inj hother
      exact hmove.released.reads
    · simp only [Objects.moved, objects_put, values_put, update_of_ne hns] at hother ⊢
      rcases eq_or_ne other id with rfl | hni
      · rw [update_self] at hother ⊢
        obtain rfl := Option.some.inj hother
        exact hmove.reads
      · rw [update_of_ne hni] at hother ⊢
        exact h.reads other moved hother

/-- After a move that does not suit, a buffer has no owner or an owner no buffer, or the object
moved into does not read as its value. -/
theorem suits_of_right_moved (hC : Lawful C Sound Suits SelfSuits) (hs : AllSound Sound s)
    (h : Right C s) (htarget : Sound target) (hid : s.owner C id = C.buffer target)
    (hne : id ≠ source) (hsource : s.objects source = some object)
    (hmoved : Right C (s.moved C id target source object)) : Suits target object := by
  by_contra hnot
  have howner : s.owner C source = C.buffer object := owner_eq hsource
  have hdistinct (address : Nat) (hbuffer : C.buffer target = some address) :
      C.buffer object ≠ some address := by
    intro hobject
    exact hne (h.owned.unique id source address (hid.trans hbuffer) (howner.trans hobject))
  obtain ⟨hreleased, hbad⟩ := hC.move_of_not_suits target object s.heap (s.values source) htarget
    (hs source object hsource) (h.reads source object hsource) hnot
    (fun address hbuffer => h.owned.isSome (hid.trans hbuffer)) hdistinct
    (fun address hbuffer => h.owned.isSome (howner.trans hbuffer))
  have hid' : (s.moved C id target source object).owner C id =
      C.buffer (C.copy target object) := by
    rw [owner_moved, update_of_ne hne, update_self]
  rcases hbad with ⟨address, hwas, hsome, hnotOwned⟩ | ⟨address, hdangling, hnone⟩ | hreads
  · -- the buffer of one of the two has no owner any more
    obtain ⟨i, hi⟩ := (hmoved.owned.allocated address).mp hsome
    rcases eq_or_ne i source with rfl | his
    · rw [owner_moved, update_self, hreleased] at hi
      cases hi
    · rcases eq_or_ne i id with rfl | hiid
      · exact hnotOwned (hid'.symm.trans hi)
      · rw [owner_moved, update_of_ne his, update_of_ne hiid] at hi
        rcases hwas with hwas | hwas
        · exact hiid (h.owned.unique i id address hi (hid.trans hwas))
        · exact his (h.owned.unique i source address hi (howner.trans hwas))
  · have hsome := hmoved.owned.isSome (hid'.trans hdangling)
    rw [moved, heap_put, hnone] at hsome
    cases hsome
  · refine hreads ?_
    have hmovedReads := hmoved.reads id (C.copy target object)
      (by simp [moved, update_of_ne hne])
    simpa [moved, update_of_ne hne] using hmovedReads

/-- After a move of an object to itself that does not suit, its buffer has no owner. -/
theorem selfSuits_of_right (hC : Lawful C Sound Suits SelfSuits) (hs : AllSound Sound s)
    (h : Right C s) (hid : s.objects id = some object)
    (hright : Right C (s.put id (C.release (C.copy object object) s.heap) C.empty)) :
    SelfSuits object := by
  by_contra hnot
  obtain ⟨hbuffer, hheap, hsome⟩ := hC.selfMove_of_not_suits object s.heap (hs id object hid) hnot
  obtain ⟨address, haddress⟩ := Option.isSome_iff_exists.mp hsome
  have howner : s.owner C id = some address := (owner_eq hid).trans haddress
  have hallocated := h.owned.isSome howner
  rw [← hheap] at hallocated
  obtain ⟨i, hi⟩ := (hright.owned.allocated address).mp hallocated
  rw [owner_put, hbuffer] at hi
  rcases eq_or_ne i id with rfl | hne
  · simp at hi
  · rw [update_of_ne hne] at hi
    exact hne (h.owned.unique i id address hi howner)

/-- A move between two objects leads to a state that is right exactly if it suits. -/
theorem moved_spec (hC : Lawful C Sound Suits SelfSuits) (hs : AllSound Sound s) (h : Right C s)
    (htarget : Sound target) (hid : s.owner C id = C.buffer target) (hne : id ≠ source)
    (hsource : s.objects source = some object) (hmove : s.move C id target source = some t) :
    (Suits target object → AllSound Sound t ∧ Right C t) ∧ (Right C t → Suits target object) := by
  rw [move_of_ne hne hsource] at hmove
  obtain rfl := Option.some.inj hmove
  refine ⟨fun hsuits => ?_, suits_of_right_moved hC hs h htarget hid hne hsource⟩
  have handed := hC.move target object s.heap _ htarget (hs source object hsource)
    (h.reads source object hsource) hsuits
  exact ⟨hs.moved handed, h.moved hid hne hsource handed⟩

/-- And so does a move of an object to itself. -/
theorem selfMoved_spec (hC : Lawful C Sound Suits SelfSuits) (hs : AllSound Sound s)
    (h : Right C s) (hid : s.objects id = some object) (hmove : s.move C id object id = some t) :
    (SelfSuits object → AllSound Sound t ∧ Right C t) ∧ (Right C t → SelfSuits object) := by
  rw [move_self hid] at hmove
  obtain rfl := Option.some.inj hmove
  refine ⟨fun hself => ?_, selfSuits_of_right hC hs h hid⟩
  have hemptied := hC.selfMove object s.heap (hs id object hid) hself
  rw [← owner_eq hid] at hemptied
  exact ⟨hs.put hemptied.sound, h.put_emptied hC hemptied⟩

/-! ## Steps and runs -/

/-- A step leads to a state that is right exactly if its move, if it is one, suits. -/
theorem step_spec (hC : Lawful C Sound Suits SelfSuits) (hs : AllSound Sound s) (h : Right C s)
    {event : Event ρ ν} (hstep : s.step C event = some t) :
    (Suited C Suits SelfSuits s event → AllSound Sound t ∧ Right C t) ∧
      (Right C t → Suited C Suits SelfSuits s event) := by
  cases event with
  | construct id raw =>
      rw [step] at hstep
      split at hstep
      · cases hstep
      · next hid =>
          obtain rfl := Option.some.inj hstep
          have hclear := hC.clear (C.fresh raw) s.heap (hC.sound_fresh raw)
          rw [← owner_eq_fresh hC hid] at hclear
          exact ⟨fun _ => ⟨hs.put hclear.sound, h.put_emptied hC hclear⟩, fun _ => trivial⟩
  | constructWith id raw value address =>
      rw [step] at hstep
      split at hstep
      · cases hstep
      · next hid =>
          obtain ⟨result, hset, rfl⟩ := Option.map_eq_some_iff.mp hstep
          have hfilled := hC.set _ _ _ _ _ (hC.sound_fresh raw) hset
          rw [← owner_eq_fresh hC hid] at hfilled
          exact ⟨fun _ => ⟨hs.put hfilled.sound, h.put_filled hC hfilled⟩, fun _ => trivial⟩
  | set id value address =>
      obtain ⟨object, hid, hstep⟩ := Option.bind_eq_some_iff.mp hstep
      obtain ⟨result, hset, hstep⟩ := Option.bind_eq_some_iff.mp hstep
      obtain rfl := Option.some.inj hstep
      have hfilled := hC.set _ _ _ _ _ (hs id object hid) hset
      rw [← owner_eq hid] at hfilled
      exact ⟨fun _ => ⟨hs.put hfilled.sound, h.put_filled hC hfilled⟩, fun _ => trivial⟩
  | clear id =>
      obtain ⟨object, hid, hstep⟩ := Option.bind_eq_some_iff.mp hstep
      obtain rfl := Option.some.inj hstep
      have hclear := hC.clear object s.heap (hs id object hid)
      rw [← owner_eq hid] at hclear
      exact ⟨fun _ => ⟨hs.put hclear.sound, h.put_emptied hC hclear⟩, fun _ => trivial⟩
  | moveConstruct id source raw =>
      rw [step] at hstep
      split at hstep
      · cases hstep
      · next hid =>
          obtain ⟨object, hsource, -⟩ := Option.bind_eq_some_iff.mp hstep
          have hne : id ≠ source := by
            rintro rfl
            rw [hid] at hsource
            cases hsource
          simpa [Suited, hsource] using
            moved_spec hC hs h (hC.sound_fresh raw) (owner_eq_fresh hC hid raw) hne hsource hstep
  | moveAssign id source =>
      obtain ⟨target, hid, hstep⟩ := Option.bind_eq_some_iff.mp hstep
      rcases eq_or_ne id source with rfl | hne
      · simpa [Suited, hid] using selfMoved_spec hC hs h hid hstep
      · obtain ⟨object, hsource, -⟩ := Option.bind_eq_some_iff.mp hstep
        simpa [Suited, hid, hsource, hne] using
          moved_spec hC hs h (hs id target hid) (owner_eq hid) hne hsource hstep
  | destroy id =>
      obtain ⟨object, hid, hstep⟩ := Option.bind_eq_some_iff.mp hstep
      obtain rfl := Option.some.inj hstep
      have hclear := hC.clear object s.heap (hs id object hid)
      rw [← owner_eq hid] at hclear
      refine ⟨fun _ => ⟨fun other o ho => ?_, h.destroy hC hclear⟩, fun _ => trivial⟩
      dsimp only at ho
      rcases eq_or_ne other id with rfl | hne
      · simp at ho
      · rw [update_of_ne hne] at ho
        exact hs other o ho

theorem right_initial : Right C (initial C) where
  faults := rfl
  owned := by
    refine ⟨fun address => iff_of_false (by simp [initial]) ?_, fun i j address hi => ?_⟩
    · simp [owner, initial]
    · simp [owner, initial] at hi
  reads := by simp [initial]

/-- Over every run the buffers have one owner each and the objects read as their values exactly
as long as every move suits the class. -/
theorem right_iff_suited (hC : Lawful C Sound Suits SelfSuits)
    {run : List (Event ρ ν × Objects ω β ν)} (hrun : IsRun (StepOf (step C)) (initial C) run) :
    AllStates (Right C) run ↔ AllSteps (Suited C Suits SelfSuits) (initial C) run :=
  hrun.allStates_iff_allSteps (I := AllSound Sound)
    (fun _ _ _ hs h hsuited hstep => ((step_spec hC hs h hstep).1 hsuited).1)
    (fun _ _ _ hs h hstep =>
      ⟨(step_spec hC hs h hstep).2, fun hsuited => ((step_spec hC hs h hstep).1 hsuited).2⟩)
    (by simp [AllSound, initial]) right_initial

end Objects

end OwnedBuffers
