/-
This file models the frames of the serial protocol: how both ends write a message as an
array of a message type and fields, and how they read it back. It says what a reader
makes of a complete array of either shape.
-/

import BrokerProxy.Codec.Serializer
import BrokerProxy.Codec.Deserializer

namespace BrokerProxy.Protocol

open Codec
open Cbor (Cursor)

/-- The message types of `broker_protocol.h`. -/
inductive MsgType
  | publish
  | subscribe
  | unsubscribe
  | node
  | log
deriving DecidableEq

/-- The number of a message type. -/
def MsgType.code : MsgType → Int32
  | .publish => 0
  | .subscribe => 1
  | .unsubscribe => 2
  | .node => 3
  | .log => 4

theorem MsgType.code_injective {first second : MsgType} (same : first.code = second.code) :
    first = second := by
  revert same
  cases first <;> cases second <;> decide

/-! ### Writing -/

/-- What both ends write for a message with a text field. -/
def textArguments (type : MsgType) (text : Bytes) : List Argument :=
  [.int type.code, .string text]

/-- What both ends write for a publication. -/
def publicationArguments (msg : PubMsg) : List Argument :=
  [.int MsgType.publish.code, .string msg.topic, .bytes msg.payload]

/-- The array of a message with a text field. -/
theorem arrayEncoding_text (type : MsgType) (text : Bytes) :
    arrayEncoding (textArguments type text) =
      Cbor.arrayStart ::
        (Cbor.encodeInt type.code.toInt ++ (Cbor.encodeText text ++ [Cbor.breakByte])) := by
  rw [arrayEncoding, Cbor.encodeArray, textArguments, List.map_cons, List.map_cons, List.map_nil,
    List.flatten_cons, List.flatten_cons, List.flatten_nil, List.append_nil, List.append_assoc]
  rfl

/-- The array of a publication. -/
theorem arrayEncoding_publication (msg : PubMsg) :
    arrayEncoding (publicationArguments msg) =
      Cbor.arrayStart ::
        (Cbor.encodeInt MsgType.publish.code.toInt ++
          (Cbor.encodeText msg.topic ++ (Cbor.encodeBytes msg.payload ++ [Cbor.breakByte]))) := by
  rw [arrayEncoding, Cbor.encodeArray, publicationArguments, List.map_cons, List.map_cons,
    List.map_cons, List.map_nil, List.flatten_cons, List.flatten_cons, List.flatten_cons,
    List.flatten_nil, List.append_nil, List.append_assoc, List.append_assoc]
  rfl

theorem length_encodeInt_code (type : MsgType) : (Cbor.encodeInt type.code.toInt).length = 1 := by
  cases type <;> decide

theorem length_arrayEncoding_text (type : MsgType) (text : Bytes) :
    (arrayEncoding (textArguments type text)).length = Cbor.stringLength text + 3 := by
  rw [arrayEncoding_text, List.length_cons, List.length_append, List.length_append,
    length_encodeInt_code, Cbor.length_encodeText, List.length_singleton]
  omega

theorem length_arrayEncoding_publication (msg : PubMsg) :
    (arrayEncoding (publicationArguments msg)).length =
      Cbor.stringLength msg.topic + Cbor.stringLength msg.payload + 3 := by
  rw [arrayEncoding_publication, List.length_cons, List.length_append, List.length_append,
    List.length_append, length_encodeInt_code, Cbor.length_encodeText, Cbor.length_encodeBytes,
    List.length_singleton]
  omega

/-! ### Reading -/

section

variable {Value : Type} (decoder : TinyCborDecoder Value)

/-- Read a message type and a text field. `msgType` is what the variable holds before it is
read. -/
def readText (type : MsgType) (fromCbor : CborDeserializer Value) (frame : Bytes)
    (msgType : Int32) : Option (Option Bytes × CborDeserializer Value) :=
  let got := ((fromCbor.fromBytes frame).begin decoder).getInt decoder msgType
  (got.2.getString decoder []).map fun text =>
    (if text.2.success ∧ got.1 = type.code then some text.1 else none, text.2)

/-- Read a publication. -/
def readPublish (fromCbor : CborDeserializer Value) (frame : Bytes) (msgType : Int32) :
    Option (Option PubMsg × CborDeserializer Value) :=
  let got := ((fromCbor.fromBytes frame).begin decoder).getInt decoder msgType
  (got.2.getString decoder []).bind fun topic =>
    (topic.2.getBytes decoder []).map fun payload =>
      (if payload.2.end.success ∧ got.1 = MsgType.publish.code then
        some { topic := topic.1, payload := payload.1 }
      else none, payload.2.end)

variable {decoder} {fromCbor : CborDeserializer Value} {frame : Bytes}

theorem readText_capacity {type : MsgType} {msgType : Int32}
    {result : Option Bytes × CborDeserializer Value}
    (got : readText decoder type fromCbor frame msgType = some result) :
    result.2.capacity = fromCbor.capacity := by
  obtain ⟨text, gotText, rfl⟩ := Option.map_eq_some_iff.mp got
  exact (CborDeserializer.getString_capacity gotText).trans
    ((CborDeserializer.getInt_capacity _ _ _).trans (CborDeserializer.begin_capacity _ _))

theorem readPublish_capacity {msgType : Int32} {result : Option PubMsg × CborDeserializer Value}
    (got : readPublish decoder fromCbor frame msgType = some result) :
    result.2.capacity = fromCbor.capacity := by
  obtain ⟨topic, gotTopic, rest⟩ := Option.bind_eq_some_iff.mp got
  obtain ⟨payload, gotPayload, rfl⟩ := Option.map_eq_some_iff.mp rest
  exact (CborDeserializer.getBytes_capacity gotPayload).trans
    ((CborDeserializer.getString_capacity gotTopic).trans
      ((CborDeserializer.getInt_capacity _ _ _).trans (CborDeserializer.begin_capacity _ _)))

/-- A text field is read up to its first NUL. -/
theorem getString_field {text rest : Bytes} (small : text.length < 2 ^ 64)
    (reached : fromCbor.Reached decoder { rest := Cbor.encodeText text ++ rest, remaining := none })
    (t : Bytes) :
    ∃ moved, fromCbor.getString decoder t = some (cString text, moved) ∧
      moved.Reached decoder { rest := rest, remaining := none } := by
  obtain ⟨element, next⟩ := Cbor.Cursor.element_next (Cbor.item_encodeText small rest) rfl
  exact CborDeserializer.getString_of_text reached element next t

/-- A byte field is read as it is. -/
theorem getBytes_field {body rest : Bytes} (small : body.length < 2 ^ 64)
    (reached : fromCbor.Reached decoder
      { rest := Cbor.encodeBytes body ++ rest, remaining := none })
    (t : Bytes) :
    ∃ moved, fromCbor.getBytes decoder t = some (body, moved) ∧
      moved.Reached decoder { rest := rest, remaining := none } := by
  obtain ⟨element, next⟩ := Cbor.Cursor.element_next (Cbor.item_encodeBytes small rest) rfl
  exact CborDeserializer.getBytes_of_bytes reached element next t

variable (decoder)

/-- `begin` on an array moves to its first element. -/
theorem begin_array {bytes : Bytes}
    (received : frame.take fromCbor.capacity = Cbor.arrayStart :: bytes) :
    ((fromCbor.fromBytes frame).begin decoder).Reached decoder
      { rest := bytes, remaining := none } := by
  refine CborDeserializer.begin_reached ?_ nofun
  rw [received]
  exact Cbor.enter_arrayStart bytes

theorem item_code (type : MsgType) (rest : Bytes) :
    Cbor.item (Cbor.encodeInt type.code.toInt ++ rest) = .int type.code.toInt rest := by
  have lower : -2 ^ 64 ≤ type.code.toInt := by cases type <;> decide
  have upper : type.code.toInt < 2 ^ 64 := by cases type <;> decide
  exact Cbor.item_encodeInt lower upper rest

/-- The message type is read first. -/
theorem getInt_code {type : MsgType} {rest : Bytes}
    (received : frame.take fromCbor.capacity =
      Cbor.arrayStart :: (Cbor.encodeInt type.code.toInt ++ rest)) (msgType : Int32) :
    (((fromCbor.fromBytes frame).begin decoder).getInt decoder msgType).1 = type.code ∧
      (((fromCbor.fromBytes frame).begin decoder).getInt decoder msgType).2.Reached decoder
        { rest := rest, remaining := none } := by
  obtain ⟨element, next⟩ := Cbor.Cursor.element_next (item_code type rest) rfl
  have got := CborDeserializer.getInt_of_int (begin_array decoder received) element next msgType
  rwa [Int32.ofInt_toInt] at got

/-- A reader of a text message takes the field, and emits if the type is the one it waits for. -/
theorem readText_of_text {type : MsgType} (wanted : MsgType) {text rest : Bytes}
    (small : text.length < 2 ^ 64)
    (usable : (Cursor.mk rest none none).element.usable = true)
    (received : frame.take fromCbor.capacity =
      Cbor.arrayStart :: (Cbor.encodeInt type.code.toInt ++ (Cbor.encodeText text ++ rest)))
    (msgType : Int32) :
    ∃ after, readText decoder wanted fromCbor frame msgType =
      some (if type = wanted then some (cString text) else none, after) := by
  obtain ⟨code, reached⟩ := getInt_code decoder received msgType
  obtain ⟨moved, got, after⟩ := getString_field small reached []
  refine ⟨moved, ?_⟩
  have success : moved.success = true := decide_eq_true (after.at usable).1
  unfold readText
  dsimp only
  rw [got, code, Option.map_some, success]
  by_cases same : type = wanted
  · rw [if_pos same, if_pos ⟨rfl, congrArg MsgType.code same⟩]
  · rw [if_neg same, if_neg fun both => same (MsgType.code_injective both.2)]

/-- The reader of publications takes both fields of a publication. -/
theorem readPublish_of_publication {msg : PubMsg} {rest : Bytes}
    (topicSmall : msg.topic.length < 2 ^ 64) (payloadSmall : msg.payload.length < 2 ^ 64)
    (usable : (Cursor.mk rest none none).element.usable = true)
    (received : frame.take fromCbor.capacity =
      Cbor.arrayStart :: (Cbor.encodeInt MsgType.publish.code.toInt ++
        (Cbor.encodeText msg.topic ++ (Cbor.encodeBytes msg.payload ++ rest))))
    (msgType : Int32) :
    ∃ after, readPublish decoder fromCbor frame msgType =
      some (some { topic := cString msg.topic, payload := msg.payload }, after) := by
  obtain ⟨code, reached⟩ := getInt_code decoder received msgType
  obtain ⟨moved, gotTopic, between⟩ := getString_field topicSmall reached []
  obtain ⟨final, gotPayload, after⟩ := getBytes_field payloadSmall between []
  refine ⟨final, ?_⟩
  have success : final.end.success = true := decide_eq_true (after.at usable).1
  unfold readPublish
  dsimp only
  rw [gotTopic, code, Option.bind_some, gotPayload, Option.map_some, if_pos ⟨success, rfl⟩]
  rfl

/-- The reader of publications emits nothing for a message with only a text field. -/
theorem readPublish_of_text {type : MsgType} {text : Bytes} (small : text.length < 2 ^ 64)
    (received : frame.take fromCbor.capacity = arrayEncoding (textArguments type text))
    (msgType : Int32) :
    ∃ after, readPublish decoder fromCbor frame msgType = some (none, after) := by
  rw [arrayEncoding_text] at received
  obtain ⟨-, reached⟩ := getInt_code decoder received msgType
  obtain ⟨moved, gotTopic, between⟩ := getString_field small reached []
  have gotPayload := CborDeserializer.getBytes_of_other between
    (by rw [Cbor.element_breakByte]; rfl) (by rw [Cbor.element_breakByte]; rfl) []
  refine ⟨moved.illegal, ?_⟩
  unfold readPublish
  dsimp only
  rw [gotTopic, Option.bind_some, gotPayload, Option.map_some, if_neg]
  · rfl
  · rintro ⟨success, -⟩
    exact moved.illegal_err (of_decide_eq_true success)

/-! ### A frame that is cut -/

/-- A publication that was read went through all three calls without an error. -/
theorem readPublish_calls {msgType : Int32} {msg : PubMsg} {after : CborDeserializer Value}
    (got : readPublish decoder fromCbor frame msgType = some (some msg, after)) :
    ∃ topic payload,
      (((fromCbor.fromBytes frame).begin decoder).getInt decoder msgType).2.getString decoder [] =
        some topic ∧
      topic.2.getBytes decoder [] = some payload ∧ payload.2.err = .noError := by
  unfold readPublish at got
  obtain ⟨topic, gotTopic, rest⟩ := Option.bind_eq_some_iff.mp got
  obtain ⟨payload, gotPayload, same⟩ := Option.map_eq_some_iff.mp rest
  refine ⟨topic, payload, gotTopic, gotPayload, ?_⟩
  by_contra failed
  have unsuccessful : ¬ (payload.2.end.success = true ∧
      (((fromCbor.fromBytes frame).begin decoder).getInt decoder msgType).1 =
        MsgType.publish.code) :=
    fun both => failed (of_decide_eq_true both.1)
  rw [if_neg unsuccessful] at same
  cases congrArg Prod.fst same

/-- The reader of publications emits nothing for a publication of which the end is missing. -/
theorem readPublish_of_cut {msg written : PubMsg} {kept lost : Bytes}
    (topicSmall : written.topic.length < 2 ^ 64) (payloadSmall : written.payload.length < 2 ^ 64)
    (received : frame.take fromCbor.capacity = Cbor.arrayStart :: kept)
    (whole : Cbor.arrayStart :: (kept ++ lost) = arrayEncoding (publicationArguments written))
    (short : lost ≠ []) (msgType : Int32) (after : CborDeserializer Value) :
    readPublish decoder fromCbor frame msgType ≠ some (some msg, after) := by
  intro got
  obtain ⟨topic, payload, gotTopic, gotPayload, noError⟩ := readPublish_calls decoder got
  rw [arrayEncoding_publication, List.cons_inj_right] at whole
  have topicNoError := CborDeserializer.err_of_getBytes gotPayload noError
  have codeNoError := CborDeserializer.err_of_getString gotTopic topicNoError
  -- Each call that succeeds leaves less of the input; in the end not even the break byte is there.
  obtain ⟨afterCode, atTopic, reached⟩ := CborDeserializer.getInt_kept
    (begin_array decoder received) (whole ▸ item_code .publish _) msgType codeNoError
  obtain ⟨afterTopic, atPayload, between⟩ := CborDeserializer.getString_kept reached
    (atTopic ▸ Cbor.item_encodeText topicSmall _) gotTopic topicNoError
  obtain ⟨afterPayload, atBreak, final⟩ := CborDeserializer.getBytes_kept between
    (atPayload ▸ Cbor.item_encodeBytes payloadSmall _) gotPayload noError
  have nothing : afterPayload = [] := by
    cases afterPayload with
    | nil => rfl
    | cons byte later =>
      have length := congrArg List.length atBreak
      rw [List.length_append, List.length_cons, List.length_singleton] at length
      have positive := List.length_pos_iff.mpr short
      omega
  rw [nothing] at final
  exact final.1 rfl noError

/-- The reader of publications emits nothing for an empty frame. -/
theorem readPublish_of_nil (msgType : Int32) (msg : PubMsg) (after : CborDeserializer Value) :
    readPublish decoder fromCbor [] msgType ≠ some (some msg, after) := by
  intro got
  obtain ⟨topic, payload, gotTopic, gotPayload, noError⟩ := readPublish_calls decoder got
  have topicNoError := CborDeserializer.err_of_getBytes gotPayload noError
  have codeNoError := CborDeserializer.err_of_getString gotTopic topicNoError
  exact CborDeserializer.getInt_of_err (CborDeserializer.begin_of_nil decoder fromCbor) msgType
    codeNoError

end

end BrokerProxy.Protocol
