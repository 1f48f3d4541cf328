/-
This file models the path of a firmware image: the command-line program reads a file and
publishes it, and the proxy of the node writes what it receives to a file that it flashes.
The program wraps the image in a CBOR array, and the handler of the proxy writes the
payload as it is, so no file arrives.
-/

import BrokerProxy.Codec.Serializer
import BrokerProxy.Redis.ReplyStream

namespace BrokerProxy.Protocol

open Codec
open Redis (ascii)

/-! ### The command-line program -/

/-- `readBytesFromFile` of a file that can be opened: its size is kept in a `uint32_t`. -/
def readBytesFromFile (content : Bytes) : Bytes := content.take (content.length % 2 ^ 32)

/-- `flashTopic`. -/
def flashTopic (node : Bytes) : Bytes :=
  ascii "dst/" ++ cString node ++ ascii "-proxy/prog/flash"

section

variable {width : Nat} (tiny : TinyCborEncoder width) (toCbor : CborSerializer width)

/-- The handler of `broker.connected`: what it gives to `broker.publish` for a file. -/
def publishFirmware (node content : Bytes) : Option PubMsg :=
  (toCbor.serialize tiny [.bytes (readBytesFromFile content)]).toBytes.map fun bs =>
    { topic := flashTopic node, payload := bs }

/-! ### The proxy -/

/-- `writeBytesToFile`: what the file holds afterwards. -/
def writeBytesToFile (data : Bytes) : Bytes := data

/-- The handler of `brokerProxy.incoming()`: what it writes to `image.bin` for a message, if it
writes. -/
def flashHandler (nodeName : Bytes) (msg : PubMsg) : Option Bytes :=
  let dstPrefix := ascii "dst/" ++ cString nodeName ++ ascii "-proxy/"
  if msg.topic = dstPrefix ++ ascii "prog/flash" then some (writeBytesToFile msg.payload) else none

/-- What the proxy of a node writes to `image.bin` for a file: the message comes as a reply for the
pattern that the proxy has subscribed to. -/
def imageWritten (pattern node nodeName content : Bytes) : Option Bytes :=
  (publishFirmware tiny toCbor node content).bind fun msg =>
    (Redis.readInvoker (Redis.ServerReply.pmessage pattern (cString msg.topic)
      msg.payload).reply).bind (flashHandler nodeName)

/-! ### What arrives -/

variable {tiny toCbor}

/-- The proxy writes the payload that was published. -/
theorem imageWritten_eq_some {pattern node nodeName content image : Bytes}
    (written : imageWritten tiny toCbor pattern node nodeName content = some image) :
    (toCbor.serialize tiny [.bytes (readBytesFromFile content)]).toBytes = some image := by
  obtain ⟨msg, published, rest⟩ := Option.bind_eq_some_iff.mp written
  obtain ⟨received, invoked, handled⟩ := Option.bind_eq_some_iff.mp rest
  obtain ⟨bs, bytes, rfl⟩ := Option.map_eq_some_iff.mp published
  rw [Redis.readInvoker_reply] at invoked
  cases invoked
  unfold flashHandler at handled
  dsimp only at handled
  split at handled
  · cases handled
    exact bytes
  · cases handled

theorem length_readBytesFromFile (content : Bytes) :
    (readBytesFromFile content).length = content.length % 2 ^ 32 := by
  rw [readBytesFromFile, List.length_take, Nat.min_eq_left (Nat.mod_le _ _)]

/-- The array of an image is longer than the image. -/
theorem lt_length_arrayEncoding (data : Bytes) :
    data.length < (arrayEncoding [.bytes data]).length := by
  have longer := Cbor.length_le_stringLength data
  rw [length_arrayEncoding, List.length_cons, List.map_cons, List.map_nil, List.flatten_cons,
    List.flatten_nil, List.append_nil]
  show data.length < (Cbor.encodeBytes data).length + 1 + 1
  rw [Cbor.length_encodeBytes]
  omega

/-- No file arrives: the proxy writes the array of what was read, an empty file if the array has no
room, or nothing. -/
theorem firmware_never_arrives (capacity : toCbor.buffer.capacity = 10000000)
    (pattern node nodeName content : Bytes) :
    imageWritten tiny toCbor pattern node nodeName content ≠ some content := by
  intro written
  have length := length_readBytesFromFile content
  have longer := lt_length_arrayEncoding (readBytesFromFile content)
  rcases toBytes_cases tiny toCbor _ (imageWritten_eq_some written) with
    ⟨fits, array⟩ | ⟨overflow, empty⟩
  · -- The array is longer than the part of the file that it holds, and shorter than a file of
    -- which only a part was read.
    have same := congrArg List.length array
    rcases Nat.lt_or_ge content.length (2 ^ 32) with small | large
    · rw [Nat.mod_eq_of_lt small] at length
      omega
    · omega
  · -- An empty file fits.
    rw [empty] at overflow
    exact absurd overflow (by rw [capacity]; decide)

end

theorem firmware_never_arrives_byte :
    imageWritten (referenceEncoder 64) (constructedAt (largeBlock 10000000 (by decide)))
      (ascii "dst/esp32-proxy/*") (ascii "esp32") (ascii "esp32") [0xE9] ≠ some [0xE9] :=
  firmware_never_arrives rfl (ascii "dst/esp32-proxy/*") (ascii "esp32") (ascii "esp32") [0xE9]

/-- A file of one byte is written as an array with a byte string. -/
theorem firmware_written_wrapped :
    imageWritten (referenceEncoder 64) (constructedAt (largeBlock 10000000 (by decide)))
        (ascii "dst/esp32-proxy/*") (ascii "esp32") (ascii "esp32") [0xE9] =
          some [0x9F, 0x41, 0xE9, 0xFF] ∧
      [0x9F, 0x41, 0xE9, 0xFF] ≠ [(0xE9 : UInt8)] :=
  ⟨by decide +kernel, by decide⟩

end BrokerProxy.Protocol
