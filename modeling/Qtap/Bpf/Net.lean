import Qtap.Core.BigEndian
import Qtap.Bpf.Types

/-!
# Classification of addresses

`is_local_ip` and `is_private_ip`.  The source loads four bytes as a word and masks it
with constants in network byte order; the model compares the number in that order.
-/

namespace Qtap.Bpf

open Qtap.Core

def octet (bytes : List Byte) (index : ℕ) : ℕ := (bytes[index]?.getD 0).toNat

/-- A word of an address in network byte order. -/
def word (bytes : List Byte) (offset : ℕ) : ℕ := beValue ((bytes.drop offset).take 4)

def ipv4Mapped (addr : List Byte) : Bool :=
  addr.take 12 = List.replicate 10 0 ++ [0xff, 0xff]

def isLocalIp (addr : NetAddr) : Bool :=
  if addr.saFamily = afInet then
    let ip := word addr.addr 0
    ip &&& 0xff000000 = 0x7f000000 || ip &&& 0xffff0000 = 0xa9fe0000 || ip = 0
  else if addr.saFamily = afInet6 then
    addr.addr = List.replicate 15 0 ++ [1] || addr.addr = List.replicate 16 0 ||
      ipv4Mapped addr.addr && octet addr.addr 12 = 0x7f
  else false

def privateWord (ip : ℕ) : Bool :=
  ip &&& 0xff000000 = 0x0a000000 || ip &&& 0xfff00000 = 0xac100000 || ip &&& 0xffff0000 = 0xc0a80000

def isPrivateIp (addr : NetAddr) : Bool :=
  if addr.saFamily = afInet then privateWord (word addr.addr 0)
  else if addr.saFamily = afInet6 then
    octet addr.addr 0 &&& 0xfe = 0xfc ||
      (octet addr.addr 0 = 0xfe && octet addr.addr 1 &&& 0xc0 = 0x80) ||
      ipv4Mapped addr.addr && privateWord (word addr.addr 12)
  else false

/-! ## IPv4 addresses in either family -/

variable (ip : UInt32) (rest : List Byte) (port : ℕ)

def inetAddr : NetAddr := ⟨afInet, beBytes 4 ip.toNat ++ rest, port⟩

/-- The address as `::ffff:a.b.c.d`. -/
def mappedAddr : NetAddr :=
  ⟨afInet6, (List.replicate 10 0 ++ [0xff, 0xff]) ++ beBytes 4 ip.toNat, port⟩

theorem word_inetAddr : word (inetAddr ip rest port).addr 0 = ip.toNat := by
  rw [inetAddr, word, List.drop_zero, List.take_left' length_beBytes]
  exact beValue_beBytes 4 _ ip.toNat_lt

theorem word_mappedAddr : word (mappedAddr ip port).addr 12 = ip.toNat := by
  have hdrop : (mappedAddr ip port).addr.drop 12 = beBytes 4 ip.toNat := rfl
  rw [word, hdrop, List.take_of_length_le length_beBytes.le]
  exact beValue_beBytes 4 _ ip.toNat_lt

theorem and_div_eq (mask : ℕ) (hmask : mask >>> 24 = 2 ^ 8 - 1) (value : ℕ) :
    (value &&& mask) / 2 ^ 24 = value / 2 ^ 24 % 2 ^ 8 := by
  rw [← Nat.shiftRight_eq_div_pow, Nat.shiftRight_and_distrib, hmask,
    Nat.and_two_pow_sub_one_eq_mod, Nat.shiftRight_eq_div_pow]

/-- Loopback is told by the first octet. -/
theorem and_eq_loopback_iff (value : ℕ) :
    value &&& 0xff000000 = 0x7f000000 ↔ value / 2 ^ 24 % 2 ^ 8 = 0x7f := by
  have hhigh := and_div_eq 0xff000000 rfl value
  have hlow : (value &&& 0xff000000) % 2 ^ 24 = 0 := by
    rw [Nat.and_mod_two_pow, Nat.and_zero]
  omega

theorem isLocalIp_mappedAddr :
    isLocalIp (mappedAddr ip port) = decide (ip.toNat / 2 ^ 24 % 2 ^ 8 = 0x7f) := by
  simp [isLocalIp, mappedAddr, afInet, afInet6, ipv4Mapped, octet, beBytes, leBytes,
    Nat.div_div_eq_div_mul]

/-- Both families agree on what is private, and on what is local save for the link-local
addresses and `0.0.0.0`. -/
theorem mapped_classified_alike_iff :
    isPrivateIp (mappedAddr ip port) = isPrivateIp (inetAddr ip rest port) ∧
      (isLocalIp (mappedAddr ip port) = isLocalIp (inetAddr ip rest port) ↔
        ip.toNat &&& 0xffff0000 ≠ 0xa9fe0000 ∧ ip.toNat ≠ 0) := by
  constructor
  · rw [isPrivateIp, isPrivateIp, word_inetAddr, word_mappedAddr]
    simp [mappedAddr, inetAddr, afInet, afInet6, octet, ipv4Mapped]
  · have hhigh := and_div_eq 0xffff0000 rfl ip.toNat
    rw [isLocalIp_mappedAddr, isLocalIp, if_pos (c := (inetAddr ip rest port).saFamily = afInet) rfl,
      word_inetAddr]
    simp only [and_eq_loopback_iff]
    grind

/-- `169.254.0.1`. -/
theorem linkLocal_mapped_differs :
    isLocalIp (inetAddr 0xa9fe0001 [] 0) = true ∧ isLocalIp (mappedAddr 0xa9fe0001 0) = false := by
  decide

end Qtap.Bpf
