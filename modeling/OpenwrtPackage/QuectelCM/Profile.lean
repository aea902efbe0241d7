/-
**The profile of a data call.**

`PROFILE_T` of `QMIThread.h`: what the user asks for, the addresses that the modem assigns, and the
settings that the modem has stored.

* `QuectelCM.CStr` — a string without NULs, as a C program sees it;
* `QuectelCM.IpFamily`, `QuectelCM.Ipv4`, `QuectelCM.Ipv6`;
* `QuectelCM.Profile` — the fields that the modelled functions use.
-/
import Mathlib.Data.Int.Notation
import OpenwrtPackage.Lib.Bytes

set_option relaxedAutoImplicit false
set_option autoImplicit false

namespace QuectelCM

/-- A string: the bytes in front of its NUL. -/
abbrev CStr := {s : List UInt8 // (0 : UInt8) ∉ s}

/-- `""` -/
def CStr.empty : CStr := ⟨[], by decide⟩

/-- A string, character by character. -/
def CStr.word (s : CStr) : List Char := s.1.map fun b => Char.ofNat b.toNat

/-- The characters of a string; `NULL` has none. -/
def chars (s : Option CStr) : List UInt8 :=
  match s with
  | some s => s.1
  | none => []

/-- `strlen`, and 0 for `NULL` -/
def strlen (s : Option CStr) : ℕ := (chars s).length

/-- An `int` that is stored into an `UCHAR`. -/
def uchar (n : ℤ) : UInt8 := UInt8.ofNat (n % 256).toNat

/-- `IpFamilyV4` and `IpFamilyV6`. -/
inductive IpFamily where
  | v4
  | v6
  deriving DecidableEq

/-- The number of a family. -/
def IpFamily.toInt : IpFamily → ℤ
  | .v4 => 4
  | .v6 => 6

/-- `IPV4_T` -/
structure Ipv4 where
  address : UInt32
  gateway : UInt32
  subnetMask : UInt32
  dnsPrimary : UInt32
  dnsSecondary : UInt32
  mtu : UInt32
  deriving DecidableEq

/-- `IPV6_T`; its subnet mask is not set by the modelled functions. -/
structure Ipv6 where
  address : List UInt8
  gateway : List UInt8
  dnsPrimary : List UInt8
  dnsSecondary : List UInt8
  prefixLengthIPAddr : UInt8
  prefixLengthGateway : UInt8
  mtu : UInt32
  deriving DecidableEq

/-- `memset(&profile->ipv4, 0, …)` -/
def Ipv4.zero : Ipv4 := ⟨0, 0, 0, 0, 0, 0⟩

/-- `memset(&profile->ipv6, 0, …)` -/
def Ipv6.zero : Ipv6 :=
  let zeros : List UInt8 := List.replicate 16 0
  ⟨zeros, zeros, zeros, zeros, 0, 0, 0⟩

/-- `PROFILE_T` -/
structure Profile where
  apn : Option CStr
  user : Option CStr
  password : Option CStr
  auth : ℤ
  iptype : ℤ
  pdp : ℤ
  enableIpv4 : Bool
  enableIpv6 : Bool
  curIpFamily : ℤ
  ipv4 : Ipv4
  ipv6 : Ipv6
  loopbackState : Bool
  oldApn : CStr
  oldUser : CStr
  oldPassword : CStr
  oldAuth : ℤ
  oldIptype : ℤ
  deriving DecidableEq

/-- `profile->enable_ipv4` or `profile->enable_ipv6` -/
def Profile.enable (p : Profile) : IpFamily → Bool
  | .v4 => p.enableIpv4
  | .v6 => p.enableIpv6

/-- Everything is zero but for the family that is asked for. -/
def Profile.default (enableIpv4 enableIpv6 : Bool) : Profile where
  apn := none
  user := none
  password := none
  auth := 0
  iptype := 0
  pdp := 1
  enableIpv4 := enableIpv4
  enableIpv6 := enableIpv6
  curIpFamily := 0
  ipv4 := .zero
  ipv6 := .zero
  loopbackState := false
  oldApn := .empty
  oldUser := .empty
  oldPassword := .empty
  oldAuth := 0
  oldIptype := 0

end QuectelCM
