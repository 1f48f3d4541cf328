/-
This file models how `UdpAddress::fromUri` reads an address: the string is split at its
colons, the host is resolved and the port is read by `getNumber`.

`getNumber` adds to its accumulator the accumulator itself in place of the digit, so what
it reads depends on the number of digits alone: 65488, 64528, 45328, 54544, 42256 for one to
five digits and 58640 for more. And `getInetAddr` returns 1 for a host name that cannot be
resolved, which is true.
-/

import Mathlib.Data.Nat.Digits.Defs
import Mathlib.Logic.Function.Iterate
import BrokerProxy.Redis.TopicParts

namespace BrokerProxy.Udp

open Framing Redis

/-! ### Numbers -/

/-- `std::isdigit`. -/
def isdigit (ch : UInt8) : Bool := 0x30 ≤ ch && ch ≤ 0x39

/-- What one character of a number does to the accumulator. -/
def addDigit (x : UInt16) : UInt16 :=
  let x := x * 10
  x + (x - 0x30)

/-- The loop of `getNumber`. -/
def getNumberLoop (x : UInt16) : Bytes → Bool × UInt16
  | [] => (true, x)
  | ch :: rest => if isdigit ch = true then getNumberLoop (addDigit x) rest else (false, x)

/-- `getNumber`: whether it succeeds, and the number. -/
def getNumber (s : Bytes) : Bool × UInt16 := getNumberLoop 0 s

/-! ### Hosts -/

/-- An address in the results of `getaddrinfo`. -/
inductive SocketAddress
  | inet (addr : UInt32)
  | other

/-- Host resolution: `inet_addr`, and the results of `getaddrinfo` unless it fails. -/
structure Resolver where
  inetAddr : Bytes → UInt32
  getaddrinfo : Bytes → Option (List SocketAddress)

/-- `(in_addr_t)(-1)`, which stands for no address. -/
def noAddress : UInt32 := 0xFFFFFFFF

/-- The address that the loop over the results of `getaddrinfo` ends with. -/
def lastInet (servinfo : List SocketAddress) : UInt32 :=
  servinfo.foldl
    (fun addr p =>
      match p with
      | .inet found => found
      | .other => addr)
    noAddress

/-- `getInetAddr`: whether it succeeds, and the address. A name that cannot be resolved is answered
by 1. -/
def getInetAddr (resolver : Resolver) (hostname : Bytes) : Bool × UInt32 :=
  if isdigit (hostname.headD 0) = true then
    let addr := resolver.inetAddr (cString hostname)
    (addr != noAddress, addr)
  else
    match resolver.getaddrinfo (cString hostname) with
    | none => (true, noAddress)
    | some servinfo => (lastInet servinfo != noAddress, lastInet servinfo)

/-! ### Addresses -/

structure UdpAddress where
  ip : UInt32
  port : UInt16
deriving DecidableEq

/-- The character `:`. -/
def colon : UInt8 := 0x3A

/-- `UdpAddress::fromUri`: whether it succeeds, and the address. -/
def fromUri (resolver : Resolver) (udpAddress : UdpAddress) (uri : Bytes) : Bool × UdpAddress :=
  match split uri colon with
  | [hostname, s] =>
      let found := getInetAddr resolver hostname
      let resolved := { udpAddress with ip := found.2 }
      if found.1 = true then
        ((getNumber s).1, { resolved with port := (getNumber s).2 })
      else (false, resolved)
  | _ => (false, udpAddress)

/-! ### What they are to do -/

/-- The number that a string of digits denotes. -/
def decimal (text : Bytes) : Nat := Nat.ofDigits 10 (text.reverse.map fun ch => ch.toNat - 0x30)

/-- A decimal number that fits 16 bits. -/
structure IsPort (text : Bytes) : Prop where
  ne_nil : text ≠ []
  digits : ∀ ch ∈ text, isdigit ch = true
  fits : decimal text ≤ 65535

/-- `getNumber` accepts a string exactly if it is a number of 16 bits, and reads that number. -/
def ReadsNumber (text : Bytes) : Prop :=
  ((getNumber text).1 = true ↔ IsPort text) ∧
    ((getNumber text).1 = true → (getNumber text).2.toNat = decimal text)

/-- A host that resolution gives an address for. -/
def Resolvable (resolver : Resolver) (hostname : Bytes) : Prop :=
  if isdigit (hostname.headD 0) = true then resolver.inetAddr (cString hostname) ≠ noAddress
  else ∃ servinfo, resolver.getaddrinfo (cString hostname) = some servinfo ∧
    lastInet servinfo ≠ noAddress

/-- A string that is a host, one colon and a port. -/
structure IsUri (uri hostname text : Bytes) : Prop where
  joined : uri = hostname ++ colon :: text
  hostname_free : colon ∉ hostname
  text_free : colon ∉ text

/-- `fromUri` accepts a string exactly if it is a resolvable host, one colon and a number of
16 bits, and reads that number. -/
def ReadsUri (resolver : Resolver) (udpAddress : UdpAddress) (uri : Bytes) : Prop :=
  ((fromUri resolver udpAddress uri).1 = true ↔
      ∃ hostname text, IsUri uri hostname text ∧ Resolvable resolver hostname ∧ IsPort text) ∧
    ∀ hostname text, (fromUri resolver udpAddress uri).1 = true → IsUri uri hostname text →
      (fromUri resolver udpAddress uri).2.port.toNat = decimal text

/-- The string is no number, or one of those that are read right by chance: 42256, and 58640 with
a zero or more before it. -/
def ReadRight (text : Bytes) : Prop :=
  (∃ ch ∈ text, isdigit ch = false) ∨ text = [0x34, 0x32, 0x32, 0x35, 0x36] ∨
    ∃ zeros, 0 < zeros ∧ text = List.replicate zeros 0x30 ++ [0x35, 0x38, 0x36, 0x34, 0x30]

/-- A host name for which `getaddrinfo` fails. -/
def Unknown (resolver : Resolver) (hostname : Bytes) : Prop :=
  isdigit (hostname.headD 0) = false ∧ resolver.getaddrinfo (cString hostname) = none

/-! ### What is read -/

/-- A string of digits is read as a number that depends on its length alone. -/
theorem getNumberLoop_of_digits (text : Bytes) :
    ∀ x, (∀ ch ∈ text, isdigit ch = true) →
      getNumberLoop x text = (true, addDigit^[text.length] x) := by
  induction text with
  | nil => exact fun _ _ => rfl
  | cons ch rest inductionHypothesis =>
    intro x digits
    obtain ⟨first, others⟩ := List.forall_mem_cons.mp digits
    rw [getNumberLoop, if_pos first, inductionHypothesis _ others, List.length_cons,
      Function.iterate_succ_apply]

/-- Any other string is refused. -/
theorem getNumberLoop_of_not_digit (text : Bytes) :
    ∀ x, (∃ ch ∈ text, isdigit ch = false) → (getNumberLoop x text).1 = false := by
  induction text with
  | nil => exact fun _ other => absurd other (by simp)
  | cons ch rest inductionHypothesis =>
    intro x other
    unfold getNumberLoop
    split
    · rename_i first
      refine inductionHypothesis _ ?_
      obtain ⟨found, member, plain⟩ := other
      rcases List.mem_cons.mp member with rfl | later
      · exact absurd (first.symm.trans plain) (by decide)
      · exact ⟨found, later, plain⟩
    · rfl

/-- What is read for each number of digits. -/
theorem addDigit_iterate (length : Nat) :
    addDigit^[length + 6] 0 = 58640 := by
  have fixed : addDigit 58640 = 58640 := by decide
  have six : addDigit^[6] 0 = 58640 := by decide
  rw [Function.iterate_add_apply, six, Function.iterate_fixed fixed]

/-- For fewer than five digits it is more than the digits can denote. -/
theorem le_addDigit_iterate {length : Nat} (positive : 0 < length) (small : length < 5) :
    10 ^ length ≤ (addDigit^[length] 0).toNat := by
  match length with
  | 1 | 2 | 3 | 4 => decide

theorem digit_lt {ch : UInt8} (digit : isdigit ch = true) :
    0x30 ≤ ch.toNat ∧ ch.toNat - 0x30 < 10 := by
  unfold isdigit at digit
  obtain ⟨low, high⟩ := Bool.and_eq_true_iff.mp digit
  have above : 0x30 ≤ ch.toNat := UInt8.le_iff_toNat_le.mp (of_decide_eq_true low)
  have below : ch.toNat ≤ 0x39 := UInt8.le_iff_toNat_le.mp (of_decide_eq_true high)
  omega

theorem digits_lt {text : Bytes} (digits : ∀ ch ∈ text, isdigit ch = true) :
    ∀ digit ∈ text.reverse.map (fun ch => ch.toNat - 0x30), digit < 10 := by
  intro digit member
  obtain ⟨ch, among, rfl⟩ := List.mem_map.mp member
  exact (digit_lt (digits ch (List.mem_reverse.mp among))).2

theorem decimal_lt {text : Bytes} (digits : ∀ ch ∈ text, isdigit ch = true) :
    decimal text < 10 ^ text.length := by
  have bound := Nat.ofDigits_lt_base_pow_length (by decide) (digits_lt digits)
  rwa [List.length_map, List.length_reverse] at bound

/-- Two strings of digits of one length that denote the same number are equal. -/
theorem eq_of_decimal_eq {first second : Bytes} (digits : ∀ ch ∈ first, isdigit ch = true)
    (others : ∀ ch ∈ second, isdigit ch = true) (lengths : first.length = second.length)
    (same : decimal first = decimal second) : first = second := by
  have values : first.reverse.map (fun ch => ch.toNat - 0x30) =
      second.reverse.map fun ch => ch.toNat - 0x30 := by
    refine Nat.ofDigits_inj_of_len_eq (by decide) ?_ (digits_lt digits) (digits_lt others) same
    rw [List.length_map, List.length_map, List.length_reverse, List.length_reverse, lengths]
  rw [List.map_reverse, List.map_reverse, List.reverse_inj] at values
  refine List.ext_getElem lengths fun index inside within => ?_
  have here := congrArg (fun digits => digits[index]?) values
  simp only [List.getElem?_map, List.getElem?_eq_getElem inside, List.getElem?_eq_getElem within,
    Option.map_some, Option.some.injEq] at here
  have low := (digit_lt (digits _ (List.getElem_mem inside))).1
  have high := (digit_lt (others _ (List.getElem_mem within))).1
  exact UInt8.toNat_inj.mp (by omega)

/-- Zeros before a number do not change it. -/
theorem decimal_replicate_append (zeros : Nat) (text : Bytes) :
    decimal (List.replicate zeros 0x30 ++ text) = decimal text := by
  unfold decimal
  rw [List.reverse_append, List.map_append, List.reverse_replicate, List.map_replicate]
  exact Nat.ofDigits_append_replicate_zero _

/-- Of the strings of digits, those are read right that happen to denote the number for their
length. -/
theorem readRight_of_decimal {text : Bytes} (digits : ∀ ch ∈ text, isdigit ch = true)
    (some : text ≠ []) (same : (addDigit^[text.length] 0).toNat = decimal text) :
    ReadRight text := by
  have bound := decimal_lt digits
  have positive : 0 < text.length := List.length_pos_iff.mpr some
  match count : text.length with
  | 0 | 1 | 2 | 3 | 4 =>
    have number := le_addDigit_iterate positive (by omega)
    omega
  | 5 =>
    rw [count] at same
    refine Or.inr (Or.inl (eq_of_decimal_eq digits (List.all_eq_true.mp (by decide)) count ?_))
    exact same.symm.trans (by decide)
  | length + 6 =>
    rw [count, addDigit_iterate] at same
    refine Or.inr (Or.inr ⟨length + 1, Nat.succ_pos length, eq_of_decimal_eq digits ?_ ?_ ?_⟩)
    · have others : ∀ ch ∈ [0x35, 0x38, 0x36, 0x34, (0x30 : UInt8)], isdigit ch = true :=
        List.all_eq_true.mp (by decide)
      refine List.forall_mem_append.mpr ⟨fun ch zero => ?_, others⟩
      rw [List.eq_of_mem_replicate zero]
      decide
    · rw [count, List.length_append, List.length_replicate]
      rfl
    · rw [decimal_replicate_append]
      exact same.symm.trans (by decide)

theorem digits_of_not_exists {text : Bytes} (plain : ¬ ∃ ch ∈ text, isdigit ch = false) :
    ∀ ch ∈ text, isdigit ch = true := by
  intro ch member
  exact Bool.not_eq_false _ ▸ fun other => plain ⟨ch, member, other⟩

/-- `getNumber` reads a string as it is to exactly if the string is read right. -/
theorem readsNumber_iff (text : Bytes) : ReadsNumber text ↔ ReadRight text := by
  by_cases other : ∃ ch ∈ text, isdigit ch = false
  · refine iff_of_true ?_ (Or.inl other)
    have refused : (getNumber text).1 = false := getNumberLoop_of_not_digit text 0 other
    refine ⟨iff_of_false (by rw [refused]; decide) fun port => ?_, fun accepted => ?_⟩
    · obtain ⟨ch, member, plain⟩ := other
      exact absurd ((port.digits ch member).symm.trans plain) (by decide)
    · exact absurd (refused.symm.trans accepted) (by decide)
  · have digits := digits_of_not_exists other
    have read : getNumber text = (true, addDigit^[text.length] 0) :=
      getNumberLoop_of_digits text 0 digits
    unfold ReadsNumber
    rw [read]
    constructor
    · rintro ⟨port, value⟩
      exact readRight_of_decimal digits (port.mp rfl).ne_nil (value rfl)
    · rintro (plain | rfl | ⟨zeros, positive, rfl⟩)
      · exact absurd plain other
      · exact ⟨iff_of_true rfl ⟨by decide, digits, by decide⟩, fun _ => by decide⟩
      · have value : decimal (List.replicate zeros 0x30 ++ [0x35, 0x38, 0x36, 0x34, 0x30]) =
            58640 := (decimal_replicate_append zeros _).trans (by decide)
        have number : addDigit^[(List.replicate zeros 0x30 ++
            [0x35, 0x38, 0x36, 0x34, (0x30 : UInt8)]).length] 0 = 58640 := by
          obtain ⟨length, rfl⟩ := Nat.exists_eq_succ_of_ne_zero positive.ne'
          rw [List.length_append, List.length_replicate]
          exact addDigit_iterate length
        refine ⟨iff_of_true rfl ⟨by simp, digits, value ▸ by decide⟩, fun _ => ?_⟩
        rw [value, number]
        rfl

/-! ### What is resolved -/

/-- A host is answered by true if it is resolvable, and also if it is unknown. -/
theorem getInetAddr_iff (resolver : Resolver) (hostname : Bytes) :
    (getInetAddr resolver hostname).1 = true ↔
      Resolvable resolver hostname ∨ Unknown resolver hostname := by
  unfold getInetAddr Resolvable Unknown
  by_cases dotted : isdigit (hostname.headD 0) = true
  · rw [if_pos dotted, if_pos dotted, dotted]
    simp
  · rw [if_neg dotted, if_neg dotted, Bool.eq_false_iff.mpr dotted]
    cases resolver.getaddrinfo (cString hostname) with
    | none => simp
    | some servinfo => simp

theorem not_resolvable_of_unknown {resolver : Resolver} {hostname : Bytes}
    (unknown : Unknown resolver hostname) : ¬ Resolvable resolver hostname := by
  unfold Resolvable
  rw [if_neg (by rw [unknown.1]; decide)]
  rintro ⟨servinfo, found, -⟩
  rw [unknown.2] at found
  cases found

theorem IsUri.split_eq {uri hostname text : Bytes} (isUri : IsUri uri hostname text) :
    split uri colon = [hostname, text] :=
  split_eq_pair_iff.mpr ⟨isUri.joined, isUri.hostname_free, isUri.text_free⟩

theorem IsUri.unique {uri hostname text other last : Bytes} (isUri : IsUri uri hostname text)
    (same : IsUri uri other last) : other = hostname ∧ last = text := by
  have parts := same.split_eq.symm.trans isUri.split_eq
  rw [List.cons.injEq, List.cons.injEq] at parts
  exact ⟨parts.1, parts.2.1⟩

/-- A host, one colon and a port: the two parts decide. -/
theorem fromUri_of_isUri {uri hostname text : Bytes} (isUri : IsUri uri hostname text)
    (resolver : Resolver) (udpAddress : UdpAddress) :
    ((fromUri resolver udpAddress uri).1 = true ↔
        (getInetAddr resolver hostname).1 = true ∧ (getNumber text).1 = true) ∧
      ((fromUri resolver udpAddress uri).1 = true →
        (fromUri resolver udpAddress uri).2.port = (getNumber text).2) := by
  unfold fromUri
  rw [isUri.split_eq]
  dsimp only
  split
  · rename_i found
    exact ⟨(and_iff_right found).symm, fun _ => rfl⟩
  · rename_i missing
    exact ⟨iff_of_false Bool.false_ne_true fun both => missing both.1, nofun⟩

/-- Any other string is refused. -/
theorem fromUri_of_not_isUri {uri : Bytes} (other : ¬ ∃ hostname text, IsUri uri hostname text)
    (resolver : Resolver) (udpAddress : UdpAddress) :
    (fromUri resolver udpAddress uri).1 = false := by
  unfold fromUri
  split
  · rename_i hostname text parts
    obtain ⟨joined, free, others⟩ := split_eq_pair_iff.mp parts
    exact absurd ⟨hostname, text, joined, free, others⟩ other
  · rfl

/-- A string of digits is accepted. -/
theorem getNumber_iff (text : Bytes) :
    (getNumber text).1 = true ↔ ∀ ch ∈ text, isdigit ch = true := by
  constructor
  · intro accepted
    refine digits_of_not_exists fun other => ?_
    have refused : (getNumber text).1 = false := getNumberLoop_of_not_digit text 0 other
    exact absurd (refused.symm.trans accepted) (by decide)
  · exact fun digits => congrArg Prod.fst (getNumberLoop_of_digits text 0 digits)

/-- A host, one colon and a port are read by their parts. -/
theorem IsUri.readsUri_iff {uri hostname text : Bytes} (isUri : IsUri uri hostname text)
    (resolver : Resolver) (udpAddress : UdpAddress) :
    ReadsUri resolver udpAddress uri ↔
      (((getInetAddr resolver hostname).1 = true ∧ (getNumber text).1 = true) ↔
          Resolvable resolver hostname ∧ IsPort text) ∧
        ((getInetAddr resolver hostname).1 = true ∧ (getNumber text).1 = true →
          (getNumber text).2.toNat = decimal text) := by
  obtain ⟨accepted, port⟩ := fromUri_of_isUri isUri resolver udpAddress
  unfold ReadsUri
  rw [accepted]
  refine and_congr (iff_congr Iff.rfl ?_) ?_
  · constructor
    · rintro ⟨other, last, same, resolvable, isPort⟩
      obtain ⟨rfl, rfl⟩ := isUri.unique same
      exact ⟨resolvable, isPort⟩
    · rintro ⟨resolvable, isPort⟩
      exact ⟨hostname, text, isUri, resolvable, isPort⟩
  · constructor
    · intro value both
      rw [← port (accepted.mpr both)]
      exact value hostname text both isUri
    · intro value other last both same
      obtain ⟨rfl, rfl⟩ := isUri.unique same
      rw [port (accepted.mpr both)]
      exact value both

/-- A host and a port are read as they are to exactly if the port is read right, or refused where
the host is unknown. -/
theorem readsParts_iff (resolver : Resolver) (hostname text : Bytes) :
    ((((getInetAddr resolver hostname).1 = true ∧ (getNumber text).1 = true) ↔
          Resolvable resolver hostname ∧ IsPort text) ∧
        ((getInetAddr resolver hostname).1 = true ∧ (getNumber text).1 = true →
          (getNumber text).2.toNat = decimal text)) ↔
      (Resolvable resolver hostname → ReadRight text) ∧
        (Unknown resolver hostname → ∃ ch ∈ text, isdigit ch = false) := by
  rw [getInetAddr_iff]
  by_cases resolvable : Resolvable resolver hostname
  · have known : ¬ Unknown resolver hostname := fun unknown =>
      not_resolvable_of_unknown unknown resolvable
    rw [← readsNumber_iff, ReadsNumber]
    simp only [resolvable, known, true_or, true_and, forall_const, false_imp_iff, and_true]
  · by_cases unknown : Unknown resolver hostname
    · have refuses : (getNumber text).1 ≠ true ↔ ∃ ch ∈ text, isdigit ch = false := by
        rw [ne_eq, getNumber_iff]
        push Not
        simp only [ne_eq, Bool.not_eq_true]
      simp only [resolvable, unknown, or_true, true_and, false_and, iff_false, forall_const,
        false_imp_iff]
      rw [← refuses]
      exact and_iff_left_of_imp fun refused accepted => absurd accepted refused
    · simp only [resolvable, unknown, or_self, false_and, false_imp_iff, and_self]

/-- `fromUri` reads a string as it is to exactly if its port is read right, or refused where the
host is unknown. -/
theorem readsUri_iff (resolver : Resolver) (udpAddress : UdpAddress) (uri : Bytes) :
    ReadsUri resolver udpAddress uri ↔
      ∀ hostname text, IsUri uri hostname text →
        (Resolvable resolver hostname → ReadRight text) ∧
          (Unknown resolver hostname → ∃ ch ∈ text, isdigit ch = false) := by
  by_cases some : ∃ hostname text, IsUri uri hostname text
  · obtain ⟨hostname, text, isUri⟩ := some
    rw [isUri.readsUri_iff, readsParts_iff]
    refine ⟨fun one other last same => ?_, fun all => all hostname text isUri⟩
    obtain ⟨rfl, rfl⟩ := isUri.unique same
    exact one
  · refine iff_of_true ?_ fun hostname text isUri => absurd ⟨hostname, text, isUri⟩ some
    have refused := fromUri_of_not_isUri some resolver udpAddress
    refine ⟨iff_of_false (by rw [refused]; decide) ?_, fun hostname text _ isUri => ?_⟩
    · rintro ⟨hostname, text, isUri, -⟩
      exact some ⟨hostname, text, isUri⟩
    · exact absurd ⟨hostname, text, isUri⟩ some

/-- `getNumber` on every string, and `fromUri` on every string and for every host resolution. -/
theorem reads_iff (resolver : Resolver) (udpAddress : UdpAddress) (text uri : Bytes) :
    (ReadsNumber text ↔ ReadRight text) ∧
      (ReadsUri resolver udpAddress uri ↔
        ∀ hostname text, IsUri uri hostname text →
          (Resolvable resolver hostname → ReadRight text) ∧
            (Unknown resolver hostname → ∃ ch ∈ text, isdigit ch = false)) :=
  ⟨readsNumber_iff text, readsUri_iff resolver udpAddress uri⟩

/-- A resolution that knows `127.0.0.1` and no names. -/
def localhost : Resolver where
  inetAddr cp :=
    if cp = [0x31, 0x32, 0x37, 0x2E, 0x30, 0x2E, 0x30, 0x2E, 0x31] then 0x0100007F else noAddress
  getaddrinfo _ := none

/-- The port of `127.0.0.1:1883` is read as 54544. -/
theorem not_readsUri :
    ¬ ReadsNumber [0x31, 0x38, 0x38, 0x33] ∧
      ¬ ReadsUri localhost ⟨0, 0⟩
        ([0x31, 0x32, 0x37, 0x2E, 0x30, 0x2E, 0x30, 0x2E, 0x31] ++
          colon :: [0x31, 0x38, 0x38, 0x33]) := by
  have isUri : IsUri ([0x31, 0x32, 0x37, 0x2E, 0x30, 0x2E, 0x30, 0x2E, 0x31] ++
      colon :: [0x31, 0x38, 0x38, 0x33]) [0x31, 0x32, 0x37, 0x2E, 0x30, 0x2E, 0x30, 0x2E, 0x31]
      [0x31, 0x38, 0x38, 0x33] := ⟨rfl, by decide, by decide⟩
  refine ⟨fun reads => absurd (reads.2 (by decide)) (by decide), fun reads => ?_⟩
  obtain ⟨accepted, port⟩ := fromUri_of_isUri isUri localhost ⟨0, 0⟩
  have succeeds := accepted.mpr ⟨by decide, by decide⟩
  have value := reads.2 _ _ succeeds isUri
  rw [port succeeds] at value
  exact absurd value (by decide)

end BrokerProxy.Udp
