/-
This file models `ppp_frame` and `ppp_deframe`. The encoder escapes every payload
byte and the two bytes of the frame check sequence and puts a flag on either side.
The decoder takes the bytes between two flags, removes the escapes while it feeds
the checksum, and finally drops the two checksum bytes with `pop_back`, which is
undefined on an empty vector; the model's decoder has no result there.
-/

import BrokerProxy.Library.Framing
import BrokerProxy.Ppp.Fcs

namespace BrokerProxy.Ppp

open Framing

/-- `PPP_MASK_CHAR`. -/
def maskChar : UInt8 := 0x20

/-- `PPP_ESC_CHAR`. -/
def escChar : UInt8 := 0x7D

/-- `PPP_FLAG_CHAR`. -/
def flagChar : UInt8 := 0x7E

/-! ### The encoder -/

/-- Add a byte to the buffer, escaped where it is one of the two special characters. -/
def addEscaped (out : Bytes) (c : UInt8) : Bytes :=
  if c = escChar ∨ c = flagChar then out ++ [escChar] ++ [c ^^^ maskChar] else out ++ [c]

/-- The loop of `ppp_frame`: escape each byte and feed it to the checksum. -/
def frameLoop (out : Bytes) (fcs : Fcs) : Bytes → Bytes × Fcs
  | [] => (out, fcs)
  | c :: rest => frameLoop (addEscaped out c) (fcs.write c) rest

/-- `ppp_frame`. -/
def pppFrame (input : Bytes) : Bytes :=
  let (out, fcs) := frameLoop [flagChar] Fcs.initial input
  let out := addEscaped out (lowByte fcs.result)
  let out := addEscaped out (highByte fcs.result)
  out ++ [flagChar]

/-! ### The decoder -/

/-- `std::vector::pop_back`, undefined on an empty vector. -/
def popBack (out : Bytes) : Option Bytes := if out = [] then none else some out.dropLast

/-- The local variables of `ppp_deframe`. -/
structure Deframing where
  out : Bytes
  escFlag : Bool
  fcs : Fcs
deriving DecidableEq

/-- The variables before the loop. -/
def Deframing.initial : Deframing := { out := [], escFlag := false, fcs := Fcs.initial }

/-- The loop of `ppp_deframe`. A flag byte leaves the function at once with `false` and the
output so far. -/
def deframeLoop : Deframing → Bytes → Except Bytes Deframing
  | state, [] => .ok state
  | state, c :: rest =>
      if c = escChar then deframeLoop { state with escFlag := true } rest
      else if c = flagChar then .error state.out
      else if state.escFlag then
        deframeLoop { out := state.out ++ [c ^^^ maskChar], escFlag := false,
                      fcs := state.fcs.write (c ^^^ maskChar) } rest
      else
        deframeLoop { state with out := state.out ++ [c], fcs := state.fcs.write c } rest

/-- `ppp_deframe`: the returned flag and the output vector. No result where one of the two final
`pop_back` calls meets an empty vector. -/
def pppDeframe (input : Bytes) : Option (Bool × Bytes) :=
  if input.length < 3 then some (false, [])
  else
    match deframeLoop Deframing.initial input with
    | .error out => some (false, out)
    | .ok state =>
        let fcsCheck := state.fcs.result == goodFcs
        ((popBack state.out).bind popBack).map fun out => (!state.escFlag && fcsCheck, out)

/-! ### The two functions as byte stuffing -/

theorem xor_xor_cancel (c mask : UInt8) : (c ^^^ mask) ^^^ mask = c := by
  rw [UInt8.xor_assoc, UInt8.xor_self, UInt8.xor_zero]

/-- The stuffing code of the PPP link. -/
def pppCode : Code UInt8 where
  flag := flagChar
  escape := escChar
  mask c := c ^^^ maskChar
  flag_ne_escape := by decide
  mask_mask c := xor_xor_cancel c maskChar
  mask_flag_ne_flag := by decide
  mask_flag_ne_escape := by decide
  mask_escape_ne_flag := by decide
  mask_escape_ne_escape := by decide

/-- The two checksum bytes that `ppp_frame` appends to a payload. -/
def fcsBytes (payload : Bytes) : Bytes :=
  [lowByte (Fcs.initial.writeAll payload).result, highByte (Fcs.initial.writeAll payload).result]

/-- What `ppp_frame` puts between its two flags. -/
def frameBody (payload : Bytes) : Bytes := stuff pppCode (payload ++ fcsBytes payload)

theorem addEscaped_eq (out : Bytes) (c : UInt8) :
    addEscaped out c = out ++ stuffSymbol pppCode c := by
  unfold addEscaped stuffSymbol
  by_cases special : c = escChar ∨ c = flagChar
  · rw [if_pos special, if_pos (show c = pppCode.escape ∨ c = pppCode.flag from special),
      List.append_assoc]
    rfl
  · rw [if_neg special, if_neg (show ¬(c = pppCode.escape ∨ c = pppCode.flag) from special)]

theorem frameLoop_eq (input : Bytes) :
    ∀ out fcs, frameLoop out fcs input = (out ++ stuff pppCode input, fcs.writeAll input) := by
  induction input with
  | nil =>
    intro out fcs
    simp only [frameLoop, stuff, List.flatMap_nil, List.append_nil]
    rfl
  | cons c rest inductionHypothesis =>
    intro out fcs
    rw [frameLoop, inductionHypothesis, addEscaped_eq, List.append_assoc]
    rfl

/-- A frame is its body between two flags. -/
theorem pppFrame_eq (payload : Bytes) :
    pppFrame payload = flagChar :: (frameBody payload ++ [flagChar]) := by
  have tail : stuff pppCode (fcsBytes payload) =
      stuffSymbol pppCode (lowByte (Fcs.initial.writeAll payload).result) ++
        stuffSymbol pppCode (highByte (Fcs.initial.writeAll payload).result) := by
    simp only [fcsBytes, stuff, List.flatMap_cons, List.flatMap_nil, List.append_nil]
  simp only [pppFrame, frameLoop_eq, addEscaped_eq, frameBody, stuff_append, tail,
    List.append_assoc, List.cons_append, List.nil_append]

/-- On a word without flags the decoder's loop unstuffs the word and feeds the checksum what it
unstuffed. -/
theorem deframeLoop_eq (input : Bytes) :
    ∀ state : Deframing, flagChar ∉ input →
      deframeLoop state input = .ok
        { out := state.out ++ (unstuff pppCode state.escFlag input).1
          escFlag := (unstuff pppCode state.escFlag input).2
          fcs := state.fcs.writeAll (unstuff pppCode state.escFlag input).1 } := by
  induction input with
  | nil =>
    intro state _
    simp only [deframeLoop, unstuff, List.append_nil]
    rfl
  | cons c rest inductionHypothesis =>
    intro state free
    rw [List.mem_cons, not_or] at free
    by_cases escape : c = escChar
    · rw [deframeLoop, if_pos escape, inductionHypothesis _ free.2, unstuff,
        if_pos (show c = pppCode.escape from escape)]
    · rw [deframeLoop, if_neg escape, if_neg (Ne.symm free.1), unstuff,
        if_neg (show ¬c = pppCode.escape from escape)]
      cases pending : state.escFlag with
      | true =>
        rw [if_pos rfl, inductionHypothesis _ free.2, if_pos rfl, List.append_assoc]
        rfl
      | false =>
        rw [if_neg Bool.false_ne_true, inductionHypothesis _ free.2,
          if_neg Bool.false_ne_true, List.append_assoc]
        rfl

/-- The decoder in terms of the unstuffed input, for the inputs that reach the final checks. -/
theorem pppDeframe_eq (input : Bytes) (long : 3 ≤ input.length) (free : flagChar ∉ input) :
    pppDeframe input =
      ((popBack (unstuff pppCode false input).1).bind popBack).map fun out =>
        (!(unstuff pppCode false input).2 &&
          (Fcs.initial.writeAll (unstuff pppCode false input).1).result == goodFcs, out) := by
  rw [pppDeframe, if_neg (by omega), deframeLoop_eq input Deframing.initial free]
  rfl

theorem popBack_append (out : Bytes) (c : UInt8) : popBack (out ++ [c]) = some out := by
  rw [popBack, if_neg (by simp), List.dropLast_concat]

/-! ### Deframing a frame -/

theorem frameBody_free (payload : Bytes) : flagChar ∉ frameBody payload :=
  stuff_flag_notMem pppCode _

theorem length_frameBody (payload : Bytes) : payload.length + 2 ≤ (frameBody payload).length := by
  have longer := length_le_length_stuff pppCode (payload ++ fcsBytes payload)
  rw [List.length_append] at longer
  exact longer

/-- The checksum of a payload followed by its two checksum bytes is the residue. -/
theorem result_writeAll_fcsBytes (payload : Bytes) :
    (Fcs.initial.writeAll (payload ++ fcsBytes payload)).result = goodFcs := by
  rw [Fcs.writeAll_append]
  exact residue _

/-- The decoder gives back the payload of every frame with a non-empty payload. -/
theorem pppDeframe_frameBody (payload : Bytes) (nonempty : payload ≠ []) :
    pppDeframe (frameBody payload) = some (true, payload) := by
  have positive : 0 < payload.length := List.length_pos_of_ne_nil nonempty
  have long := length_frameBody payload
  have unstuffed : unstuff pppCode false (frameBody payload) =
      (payload ++ fcsBytes payload, false) := unstuff_stuff pppCode _
  have pops : (popBack (payload ++ fcsBytes payload)).bind popBack = some payload := by
    rw [fcsBytes, List.append_cons, popBack_append, Option.bind_some, popBack_append]
  rw [pppDeframe_eq _ (by omega) (frameBody_free payload), unstuffed, pops,
    result_writeAll_fcsBytes]
  rfl

end BrokerProxy.Ppp
