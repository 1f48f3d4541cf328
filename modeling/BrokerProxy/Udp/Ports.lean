/-
This file models how the addresses of `Udp` are used on a little-endian host. `receive` and
`fromUri` store the number of a port in `UdpAddress`, `dstPort` stores the number with its
bytes swapped, and `send` takes the field for the bytes of the datagram's header as it is.

So the three do not agree: a reply to a received datagram goes to a port with swapped
bytes, which is the right one only where the two bytes are equal. From a URI the bytes of
what `getNumber` has read are swapped, so that of all ports with one digit or more 4309,
04261 and 4325 after two zeros are met, by chance.
-/

import BrokerProxy.Udp.Address

namespace BrokerProxy.Udp

open Redis

/-! ### The byte order -/

/-- `htons` on a little-endian host, which is `ntohs` as well. -/
def htons (x : UInt16) : UInt16 := x % 256 * 256 + x / 256

theorem toNat_htons (x : UInt16) : (htons x).toNat = x.toNat % 256 * 256 + x.toNat / 256 := by
  have small := x.toNat_lt
  unfold htons
  rw [UInt16.toNat_add, UInt16.toNat_mul, UInt16.toNat_mod, UInt16.toNat_div]
  show (x.toNat % 256 * 256 % 2 ^ 16 + x.toNat / 256) % 2 ^ 16 = _
  omega

theorem htons_htons (x : UInt16) : htons (htons x) = x := by
  have small := x.toNat_lt
  rw [← UInt16.toNat_inj, toNat_htons, toNat_htons]
  omega

/-- Swapping the bytes changes nothing exactly if they are equal. -/
theorem htons_eq_iff (x : UInt16) : htons x = x ↔ x.toNat / 256 = x.toNat % 256 := by
  have small := x.toNat_lt
  rw [← UInt16.toNat_inj, toNat_htons]
  omega

/-! ### Datagrams -/

/-- An end of a datagram: an address, and the number of a port. -/
structure Endpoint where
  ip : UInt32
  port : UInt16
deriving DecidableEq

/-- The fields of `sockaddr_in`, whose port is in network order. -/
structure SockaddrIn where
  sinAddr : UInt32
  sinPort : UInt16
deriving DecidableEq

/-- The end that a socket address stands for. -/
def SockaddrIn.endpoint (address : SockaddrIn) : Endpoint where
  ip := address.sinAddr
  port := htons address.sinPort

/-- The socket address of an end. -/
def Endpoint.sockaddr (endpoint : Endpoint) : SockaddrIn where
  sinAddr := endpoint.ip
  sinPort := htons endpoint.port

/-- A datagram that arrives. -/
structure Datagram where
  source : Endpoint
  message : Bytes

structure UdpMsg where
  src : UdpAddress
  dst : UdpAddress
  message : Bytes

/-- `UdpMsg::dstPort`. -/
def UdpMsg.dstPort (udpMsg : UdpMsg) (port : UInt16) : UdpMsg :=
  { udpMsg with dst := { udpMsg.dst with port := htons port } }

/-- `MAXLINE`, the size of the buffer of `receive`. -/
def maxLine : Nat := 1500

/-- `Udp::receive`, given the error or the datagram that `recvfrom` ends with. -/
def receive (rxd : UdpMsg) : Except Errno Datagram → Nat × UdpMsg
  | .error errno => (errno.code, rxd)
  | .ok datagram =>
      let clientaddr := datagram.source.sockaddr
      (0, { rxd with
        src := { ip := clientaddr.sinAddr, port := htons clientaddr.sinPort }
        message := datagram.message.take maxLine })

/-- `Udp::send`: its return code, and the address and the bytes that `sendto` is called with. -/
def send (udpMsg : UdpMsg) (failure : Option Errno) : Nat × SockaddrIn × Bytes :=
  let server : SockaddrIn := { sinAddr := udpMsg.dst.ip, sinPort := udpMsg.dst.port }
  ((failure.map Errno.code).getD 0, server, udpMsg.message)

/-! ### The producers -/

/-- Where an address comes from. -/
inductive Producer
  | receive (rxd : UdpMsg) (datagram : Datagram)
  | fromUri (resolver : Resolver) (udpAddress : UdpAddress) (uri : Bytes)
  | dstPort (udpMsg : UdpMsg) (port : UInt16)

/-- What an address denotes: a host, and the number of a port. -/
structure Denoted where
  ip : UInt32
  port : Nat
deriving DecidableEq

/-- What an end of a datagram denotes. -/
def Endpoint.denoted (endpoint : Endpoint) : Denoted where
  ip := endpoint.ip
  port := endpoint.port.toNat

namespace Producer

/-- The address that a producer gives, if any, and what it denotes: the sender of the datagram, the
decimal number after the colon of the URI, or the argument of `dstPort`. -/
def obtained : Producer → Option (UdpAddress × Denoted)
  | .receive rxd datagram => some ((Udp.receive rxd (.ok datagram)).2.src, datagram.source.denoted)
  | .fromUri resolver udpAddress uri =>
      let answer := Udp.fromUri resolver udpAddress uri
      match split uri colon with
      | [_, text] => if answer.1 = true then some (answer.2, ⟨answer.2.ip, decimal text⟩) else none
      | _ => none
  | .dstPort udpMsg port => some ((udpMsg.dstPort port).dst, ⟨udpMsg.dst.ip, port.toNat⟩)

/-- Every datagram that is sent to the address goes to what it denotes. -/
def Addresses (producer : Producer) : Prop :=
  ∀ address denoted, producer.obtained = some (address, denoted) →
    ∀ udpMsg failure, udpMsg.dst = address → (send udpMsg failure).2.1.endpoint.denoted = denoted

end Producer

/-- The digits for which the number read has the bytes of the number denoted, swapped: none, 4309,
04261, and 4325 after two zeros or more. -/
def SentRight (text : Bytes) : Prop :=
  text = [] ∨ text = [0x34, 0x33, 0x30, 0x39] ∨ text = [0x30, 0x34, 0x32, 0x36, 0x31] ∨
    ∃ zeros, 1 < zeros ∧ text = List.replicate zeros 0x30 ++ [0x34, 0x33, 0x32, 0x35]

/-- The sender's port has two equal bytes; the string is refused, or its port is one of those that
are met by chance; or the address is made by `dstPort`. -/
def Producer.Agrees : Producer → Prop
  | .receive _ datagram => datagram.source.port.toNat / 256 = datagram.source.port.toNat % 256
  | .fromUri resolver _ uri =>
      ∀ hostname text, IsUri uri hostname text →
        Resolvable resolver hostname ∨ Unknown resolver hostname →
          (∀ ch ∈ text, isdigit ch = true) → SentRight text
  | .dstPort _ _ => True

/-- What goes out: the field of the destination with its bytes swapped. -/
theorem endpoint_send (udpMsg : UdpMsg) (failure : Option Errno) :
    (send udpMsg failure).2.1.endpoint = ⟨udpMsg.dst.ip, htons udpMsg.dst.port⟩ := rfl

/-- An address is used rightly exactly if its port is the number it denotes with its bytes
swapped. -/
theorem sends_iff (address : UdpAddress) (denoted : Denoted) (ip : address.ip = denoted.ip) :
    (∀ udpMsg failure, udpMsg.dst = address →
        (send udpMsg failure).2.1.endpoint.denoted = denoted) ↔
      (htons address.port).toNat = denoted.port := by
  constructor
  · intro sends
    have sent := sends ⟨address, address, []⟩ none rfl
    exact congrArg Denoted.port sent
  · rintro port udpMsg failure rfl
    rw [endpoint_send, Endpoint.denoted, ip, port]

/-! ### The port of a URI -/

/-- For fewer than four digits the bytes of what is read, swapped, are more than the digits can
denote. -/
theorem le_htons_addDigit_iterate {length : Nat} (positive : 0 < length) (small : length < 4) :
    10 ^ length ≤ (htons (addDigit^[length] 0)).toNat := by
  match length with
  | 1 | 2 | 3 => decide

/-- The bytes of what is read for the port of a URI are those of the port, swapped, exactly for the
digits that are met by chance. -/
theorem htons_getNumber_iff {text : Bytes} (digits : ∀ ch ∈ text, isdigit ch = true) :
    (htons (getNumber text).2).toNat = decimal text ↔ SentRight text := by
  have read : (getNumber text).2 = addDigit^[text.length] 0 :=
    congrArg Prod.snd (getNumberLoop_of_digits text 0 digits)
  rw [read]
  constructor
  · intro same
    have bound := decimal_lt digits
    match count : text.length with
    | 0 => exact Or.inl (List.length_eq_zero_iff.mp count)
    | 1 | 2 | 3 =>
      have number := le_htons_addDigit_iterate (show 0 < text.length by omega) (by omega)
      omega
    | 4 =>
      rw [count] at same
      refine Or.inr (Or.inl (eq_of_decimal_eq digits (List.all_eq_true.mp (by decide)) count ?_))
      exact same.symm.trans (by decide)
    | 5 =>
      rw [count] at same
      refine Or.inr (Or.inr (Or.inl
        (eq_of_decimal_eq digits (List.all_eq_true.mp (by decide)) count ?_)))
      exact same.symm.trans (by decide)
    | length + 6 =>
      rw [count, addDigit_iterate] at same
      refine Or.inr (Or.inr (Or.inr ⟨length + 2, by omega, eq_of_decimal_eq digits ?_ ?_ ?_⟩))
      · have others : ∀ ch ∈ [0x34, 0x33, 0x32, (0x35 : UInt8)], isdigit ch = true :=
          List.all_eq_true.mp (by decide)
        refine List.forall_mem_append.mpr ⟨fun ch zero => ?_, others⟩
        rw [List.eq_of_mem_replicate zero]
        decide
      · rw [count, List.length_append, List.length_replicate]
        rfl
      · rw [decimal_replicate_append]
        exact same.symm.trans (by decide)
  · rintro (rfl | rfl | rfl | ⟨zeros, some, rfl⟩)
    · decide
    · decide
    · decide
    · obtain ⟨more, rfl⟩ := Nat.exists_eq_add_of_lt some
      have length : (List.replicate (1 + more + 1) 0x30 ++
          [0x34, 0x33, 0x32, (0x35 : UInt8)]).length = more + 6 := by
        rw [List.length_append, List.length_replicate, List.length_cons, List.length_cons,
          List.length_cons, List.length_singleton]
        omega
      rw [length, addDigit_iterate, decimal_replicate_append]
      decide

namespace Producer

/-- Where an address is obtained, its port decides. -/
theorem addresses_of_obtained {producer : Producer} {address : UdpAddress} {denoted : Denoted}
    (obtained : producer.obtained = some (address, denoted)) (ip : address.ip = denoted.ip) :
    producer.Addresses ↔ (htons address.port).toNat = denoted.port := by
  rw [← sends_iff address denoted ip]
  constructor
  · exact fun addresses => addresses address denoted obtained
  · intro sends other last same
    rw [obtained, Option.some.injEq, Prod.mk.injEq] at same
    obtain ⟨rfl, rfl⟩ := same
    exact sends

/-- Where no address is obtained, nothing is sent amiss. -/
theorem addresses_of_none {producer : Producer} (nothing : producer.obtained = none) :
    producer.Addresses := by
  intro address denoted obtained
  rw [nothing] at obtained
  cases obtained

/-- The address of a host, one colon and a port. -/
theorem obtained_of_isUri {uri hostname text : Bytes} (isUri : IsUri uri hostname text)
    (resolver : Resolver) (udpAddress : UdpAddress) :
    (Producer.fromUri resolver udpAddress uri).obtained =
      if (Udp.fromUri resolver udpAddress uri).1 = true then
        some ((Udp.fromUri resolver udpAddress uri).2,
          ⟨(Udp.fromUri resolver udpAddress uri).2.ip, decimal text⟩)
      else none := by
  rw [obtained, isUri.split_eq]

/-- A string is addressed to its port exactly if it is refused or its port is met by chance. -/
theorem addresses_fromUri_iff (resolver : Resolver) (udpAddress : UdpAddress) (uri : Bytes) :
    (Producer.fromUri resolver udpAddress uri).Addresses ↔
      (Producer.fromUri resolver udpAddress uri).Agrees := by
  by_cases some : ∃ hostname text, IsUri uri hostname text
  · obtain ⟨hostname, text, isUri⟩ := some
    obtain ⟨succeeds, port⟩ := fromUri_of_isUri isUri resolver udpAddress
    rw [getInetAddr_iff, getNumber_iff] at succeeds
    have obtained := obtained_of_isUri isUri resolver udpAddress
    by_cases accepted : (Udp.fromUri resolver udpAddress uri).1 = true
    · obtain ⟨resolved, digits⟩ := succeeds.mp accepted
      rw [if_pos accepted] at obtained
      rw [addresses_of_obtained obtained rfl, port accepted, htons_getNumber_iff digits]
      constructor
      · intro right other last same _ _
        obtain ⟨rfl, rfl⟩ := isUri.unique same
        exact right
      · exact fun agrees => agrees hostname text isUri resolved digits
    · rw [if_neg accepted] at obtained
      refine iff_of_true (addresses_of_none obtained) ?_
      intro other last same found digits
      obtain ⟨rfl, rfl⟩ := isUri.unique same
      exact absurd (succeeds.mpr ⟨found, digits⟩) accepted
  · refine iff_of_true (addresses_of_none ?_) ?_
    · unfold obtained
      dsimp only
      split
      · rename_i hostname text parts
        obtain ⟨joined, free, others⟩ := split_eq_pair_iff.mp parts
        exact absurd ⟨hostname, text, joined, free, others⟩ some
      · rfl
    · exact fun hostname text isUri => absurd ⟨hostname, text, isUri⟩ some

end Producer

/-- An address goes to the port it denotes exactly if its producer meets the condition. -/
theorem addresses_iff (producer : Producer) : producer.Addresses ↔ producer.Agrees := by
  cases producer with
  | receive rxd datagram =>
    have obtained : (Producer.receive rxd datagram).obtained =
        some ((receive rxd (.ok datagram)).2.src, datagram.source.denoted) := rfl
    have port : (receive rxd (.ok datagram)).2.src.port = datagram.source.port :=
      htons_htons datagram.source.port
    rw [Producer.addresses_of_obtained obtained rfl, port]
    exact UInt16.toNat_inj.trans (htons_eq_iff datagram.source.port)
  | fromUri resolver udpAddress uri =>
    exact Producer.addresses_fromUri_iff resolver udpAddress uri
  | dstPort udpMsg port =>
    have obtained : (Producer.dstPort udpMsg port).obtained =
        some ((udpMsg.dstPort port).dst, ⟨udpMsg.dst.ip, port.toNat⟩) := rfl
    have same : (htons (htons port)).toNat = port.toNat := congrArg UInt16.toNat (htons_htons port)
    exact iff_of_true ((Producer.addresses_of_obtained obtained rfl).mpr same) trivial

/-- The reply to a datagram from port 4210 goes to port 29200. -/
theorem not_addresses :
    ¬ (Producer.receive ⟨⟨0, 0⟩, ⟨0, 0⟩, []⟩ ⟨⟨0x0100007F, 4210⟩, [0x3E]⟩).Addresses := by
  intro addresses
  have sent := addresses _ _ rfl ⟨⟨0, 0⟩, ⟨0x0100007F, 4210⟩, [0x3E]⟩ none (by decide)
  exact absurd sent (by decide)

end BrokerProxy.Udp
