/-
This file states what the dump of a message relies on in `etl::string_stream` over an
`etl::string` of 1024 characters, which is not part of the repository. The pair is a
parameter. What is put into the stream is appended to the string as long as it fits, and
nothing is assumed of a string that is full. `etl::hex` lasts: it changes how integers are
written from then on, also after the string was cleared.
-/

import BrokerProxy.Library.Numerals
import BrokerProxy.Messages

namespace BrokerProxy.Codec

open Numerals

/-- The base in which a stream writes integers. -/
inductive Base
  | decimal
  | hexadecimal
deriving DecidableEq

def Base.radix : Base → Nat
  | .decimal => 10
  | .hexadecimal => 16

theorem Base.radix_bounds (base : Base) : 1 < base.radix ∧ base.radix ≤ 16 := by
  cases base with
  | decimal => decide
  | hexadecimal => decide

/-- How a stream writes an integer. Whether a sign is shown in hexadecimal depends on the
release. -/
def numberText (base : Base) (hexSigns : Bool) (number : Int) : Bytes :=
  intText base.radix (base = .decimal || hexSigns) number

/-- The string stream and its string, and their behaviour. Floating-point numbers are given by their
bits; how they are written is not stated. -/
structure StringStream (Stream : Type) where
  clear : Stream → Stream
  put : Stream → Bytes → Stream
  putUint8 : Stream → UInt8 → Stream
  putUint16 : Stream → UInt16 → Stream
  putUint64 : Stream → UInt64 → Stream
  putInt64 : Stream → Int64 → Stream
  putFloat : Stream → UInt32 → Stream
  putDouble : Stream → UInt64 → Stream
  hex : Stream → Stream
  text : Stream → Bytes
  base : Stream → Base
  hexSigns : Bool
  text_clear : ∀ ss, text (clear ss) = []
  base_clear : ∀ ss, base (clear ss) = base ss
  text_put : ∀ ss added, (text ss ++ added).length ≤ 1024 → text (put ss added) = text ss ++ added
  base_put : ∀ ss added, base (put ss added) = base ss
  text_putUint64 : ∀ ss value,
    (text ss ++ numberText (base ss) hexSigns value.toNat).length ≤ 1024 →
      text (putUint64 ss value) = text ss ++ numberText (base ss) hexSigns value.toNat
  base_putUint64 : ∀ ss value, base (putUint64 ss value) = base ss
  text_putInt64 : ∀ ss value,
    (text ss ++ numberText (base ss) hexSigns value.toInt).length ≤ 1024 →
      text (putInt64 ss value) = text ss ++ numberText (base ss) hexSigns value.toInt
  base_putInt64 : ∀ ss value, base (putInt64 ss value) = base ss
  text_hex : ∀ ss, text (hex ss) = text ss
  base_hex : ∀ ss, base (hex ss) = .hexadecimal

/-! ### A reference stream -/

/-- The string and the base. -/
structure ReferenceStream where
  text : Bytes
  base : Base

namespace ReferenceStream

/-- Append what fits. -/
def put (ss : ReferenceStream) (added : Bytes) : ReferenceStream :=
  { ss with text := (ss.text ++ added).take 1024 }

theorem text_put (ss : ReferenceStream) (added : Bytes)
    (fits : (ss.text ++ added).length ≤ 1024) : (ss.put added).text = ss.text ++ added :=
  List.take_of_length_le fits

end ReferenceStream

/-- A stream with the documented behaviour, which writes floating-point numbers by their bits. -/
def referenceStream : StringStream ReferenceStream where
  clear ss := { ss with text := [] }
  put := ReferenceStream.put
  putUint8 ss value := ss.put (numberText ss.base false value.toNat)
  putUint16 ss value := ss.put (numberText ss.base false value.toNat)
  putUint64 ss value := ss.put (numberText ss.base false value.toNat)
  putInt64 ss value := ss.put (numberText ss.base false value.toInt)
  putFloat ss bits := ss.put (numberText ss.base false bits.toNat)
  putDouble ss bits := ss.put (numberText ss.base false bits.toNat)
  hex ss := { ss with base := .hexadecimal }
  text := ReferenceStream.text
  base := ReferenceStream.base
  hexSigns := false
  text_clear _ := rfl
  base_clear _ := rfl
  text_put := ReferenceStream.text_put
  base_put _ _ := rfl
  text_putUint64 ss _ fits := ss.text_put _ fits
  base_putUint64 _ _ := rfl
  text_putInt64 ss _ fits := ss.text_put _ fits
  base_putInt64 _ _ := rfl
  text_hex _ := rfl
  base_hex _ := rfl

end BrokerProxy.Codec
