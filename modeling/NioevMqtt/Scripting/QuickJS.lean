-- SUMMARY: The functions of QuickJS that the functions given to scripts call, what they make of strings, typed arrays and numbers, and a type of values that has them.
import Mathlib.Data.List.Basic

/-!
# QuickJS

The values of scripts are a parameter, as are the functions on them. What these
functions give of strings, typed arrays and numbers is a class of its own.
-/

namespace NioevMqtt

/-- What `JS_GetTypedArrayBuffer` gives. -/
structure TypedArrayBuffer (Value : Type) where
  buffer : Value
  bytesOffset : Nat
  bytesSize : Nat
  bytesPerElement : Nat

/-- What `JS_GetArrayBuffer` gives: the memory it points to, if it points to any, and a size. -/
structure ArrayBuffer where
  bytes : Option (List UInt8)
  bytesSize : Nat

/-- `none` is an exception. -/
class QuickJS (Value : Type) where
  isString : Value → Bool
  isFunction : Value → Bool
  /-- The memory `JS_ToCString` points to. -/
  toCString : Value → List UInt8
  getTypedArrayBuffer : Value → Option (TypedArrayBuffer Value)
  getArrayBuffer : Value → ArrayBuffer
  toBool : Value → Option Bool
  toInt32 : Value → Option Int32
  newInt32 : Int32 → Value

/-- A typed array is a view of a part of a buffer. -/
structure TypedArray where
  buffer : List UInt8
  byteOffset : Nat
  byteLength : Nat
  bytesPerElement : Nat
  byteOffset_add_le : byteOffset + byteLength ≤ buffer.length
deriving DecidableEq

namespace TypedArray

/-- What the view shows. -/
def bytes (a : TypedArray) : List UInt8 := (a.buffer.drop a.byteOffset).take a.byteLength

def ShowsAll (a : TypedArray) : Prop := a.byteOffset = 0 ∧ a.byteLength = a.buffer.length

theorem bytes_eq_buffer_iff (a : TypedArray) : a.bytes = a.buffer ↔ a.ShowsAll := by
  have hle := a.byteOffset_add_le
  constructor
  · intro heq
    have hlength := congrArg List.length heq
    rw [bytes, List.length_take, List.length_drop] at hlength
    unfold ShowsAll
    omega
  · rintro ⟨hoffset, hlength⟩
    rw [bytes, hoffset, hlength, List.drop_zero, List.take_length]

end TypedArray

/-- What strings and typed arrays are, and what QuickJS makes of them and of numbers. -/
class JSValues (Value : Type) [QuickJS Value] where
  encoding : Value → List UInt8
  typedArray : Value → Option TypedArray
  toCString_eq : ∀ value, QuickJS.isString value = true →
    QuickJS.toCString value = encoding value ++ [0]
  getTypedArrayBuffer_of_none : ∀ value, typedArray value = none →
    QuickJS.getTypedArrayBuffer value = none
  getTypedArrayBuffer_of_some : ∀ value a, typedArray value = some a → ∃ buffer,
    QuickJS.getTypedArrayBuffer value =
        some ⟨buffer, a.byteOffset, a.byteLength, a.bytesPerElement⟩ ∧
      QuickJS.getArrayBuffer buffer = ⟨some a.buffer, a.buffer.length⟩
  toInt32_newInt32 : ∀ n, QuickJS.toInt32 (QuickJS.newInt32 n : Value) = some n

/-! ## Concrete values -/

/-- Values of a script. A function is known by a number. -/
inductive JSValue where
  | string (encoding : List UInt8)
  | arrayBuffer (bytes : List UInt8)
  | typedArray (array : TypedArray)
  | number (n : Int32)
  | function (n : Nat)
deriving DecidableEq

namespace JSValue

def isString : JSValue → Bool
  | string _ => true
  | _ => false

def isFunction : JSValue → Bool
  | function _ => true
  | _ => false

def toCString : JSValue → List UInt8
  | string encoding => encoding ++ [0]
  | _ => [0]

def asTypedArray : JSValue → Option TypedArray
  | typedArray array => some array
  | _ => none

def getArrayBuffer : JSValue → ArrayBuffer
  | arrayBuffer bytes => ⟨some bytes, bytes.length⟩
  | _ => ⟨none, 0⟩

def toBool : JSValue → Bool
  | string encoding => encoding ≠ []
  | number n => n ≠ 0
  | _ => true

/-- What is no number is `NaN`, and this is 0. -/
def toInt32 : JSValue → Int32
  | number n => n
  | _ => 0

instance : QuickJS JSValue where
  isString := isString
  isFunction := isFunction
  toCString := toCString
  getTypedArrayBuffer value := value.asTypedArray.map fun array =>
    ⟨arrayBuffer array.buffer, array.byteOffset, array.byteLength, array.bytesPerElement⟩
  getArrayBuffer := getArrayBuffer
  toBool value := some value.toBool
  toInt32 value := some value.toInt32
  newInt32 := number

instance : JSValues JSValue where
  encoding value := value.toCString.dropLast
  typedArray := asTypedArray
  toCString_eq value h := by
    cases value with
    | string encoding => exact congrArg (· ++ [0]) List.dropLast_concat.symm
    | _ => cases h
  getTypedArrayBuffer_of_none _ h := congrArg (Option.map _) h
  getTypedArrayBuffer_of_some _ array h :=
    ⟨arrayBuffer array.buffer, congrArg (Option.map _) h, rfl⟩
  toInt32_newInt32 _ := rfl

end JSValue

end NioevMqtt
