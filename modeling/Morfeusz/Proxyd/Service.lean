import Mathlib.Data.Nat.Log
import Morfeusz.Realmd.Service

/-!
# The service of the game proxy

`Proxy_Service` counts its connections and keeps a load, which it announces to the realm
daemon and looks at before it admits a connection. The load is declared a `float`, but
what is assigned to it is the quotient of two integers
(`Morfeusz.Proxyd.ProxyService.updateConnections`): below the limit it is zero, at the
limit it is one (`Morfeusz.Proxyd.ProxyService.load_eq_one_iff`), and there is nothing in
between.
-/

namespace Morfeusz.Proxyd

open Realmd (ProxyAnnounce ProxyShutdowned)

/-! ### A number as a `float` -/

/-- An unsigned integer converted to `float`: it is rounded to twenty-four binary digits,
and to an even one of two that are as near. -/
def floatOfUint32 (n : UInt32) : ℕ :=
  let unit := 2 ^ (Nat.log2 n.toNat - 23)
  let rest := n.toNat % unit
  (n.toNat / unit + if unit < 2 * rest ∨ unit = 2 * rest ∧ n.toNat / unit % 2 = 1 then 1 else 0) *
    unit

/-- Numbers of up to twenty-four digits are converted without a loss. -/
theorem floatOfUint32_of_lt {n : UInt32} (h : n.toNat < 2 ^ 24) : floatOfUint32 n = n.toNat := by
  have hunit : Nat.log2 n.toNat - 23 = 0 := by
    rcases Nat.eq_zero_or_pos n.toNat with h0 | hpos
    · rw [h0]
      rfl
    · have := (Nat.log2_lt hpos.ne').mpr h
      omega
  simp [floatOfUint32, hunit, Nat.mod_one]

/-! ### The service -/

/-- The members of `Proxy_Service` that have to do with its load, and the address of the
configuration. -/
structure ProxyService where
  currentConnections : UInt32
  connectionLimit : UInt16
  /-- A `float`, which only ever holds a converted integer. -/
  load : ℕ
  realmId : UInt8
  bindAddr : List UInt8

namespace ProxyService

/-- The service after `start`. -/
def start (connectionLimit : UInt16) (realmId : UInt8) (bindAddr : List UInt8) : ProxyService where
  currentConnections := 0
  connectionLimit := connectionLimit
  load := 0
  realmId := realmId
  bindAddr := bindAddr

/-- `update_connections`. A limit of zero is a division by zero, which the process does
not survive. -/
def updateConnections (p : ProxyService) (up : Bool) : Option ProxyService :=
  let currentConnections := if up then p.currentConnections + 1 else p.currentConnections - 1
  if p.connectionLimit = 0 then none
  else
    some
      { p with
        currentConnections := currentConnections
        load := floatOfUint32 (currentConnections / p.connectionLimit.toUInt32) }

/-- `EC_Communicator::announce`. -/
def announce (p : ProxyService) : ProxyAnnounce ℚ where
  realmId := p.realmId.toUInt16
  address := p.bindAddr
  load := p.load

/-- `EC_Communicator::shutdowned`. -/
def shutdowned (p : ProxyService) : ProxyShutdowned where
  address := p.bindAddr

/-! ### The load -/

/-- The load is that of the connections there are. -/
def LoadOk (p : ProxyService) : Prop :=
  p.load = floatOfUint32 (p.currentConnections / p.connectionLimit.toUInt32)

theorem loadOk_start (limit : UInt16) (realmId : UInt8) (bindAddr : List UInt8) :
    (start limit realmId bindAddr).LoadOk := by
  have hzero : (0 : UInt32) / limit.toUInt32 = 0 := by
    rw [← UInt32.toNat_inj, UInt32.toNat_div]
    exact Nat.zero_div _
  rw [LoadOk, start]
  dsimp only
  rw [hzero]
  rfl

variable {p p' : ProxyService} {up : Bool}

theorem loadOk_updateConnections (h : p.updateConnections up = some p') : p'.LoadOk := by
  rw [updateConnections] at h
  split at h
  · cases h
  · rw [← Option.some.inj h, LoadOk]

/-- What a change of the connections leaves alone. -/
theorem updateConnections_frame (h : p.updateConnections up = some p') :
    p.connectionLimit ≠ 0 ∧ p'.connectionLimit = p.connectionLimit ∧ p'.realmId = p.realmId ∧
      p'.bindAddr = p.bindAddr ∧
      p'.currentConnections =
        if up then p.currentConnections + 1 else p.currentConnections - 1 := by
  rw [updateConnections] at h
  split at h
  · cases h
  · next hlimit =>
    rw [← Option.some.inj h]
    exact ⟨hlimit, rfl, rfl, rfl, rfl⟩

/-- The load as a number, where the connections are within the limit. -/
theorem LoadOk.eq_div (h : p.LoadOk)
    (hle : p.currentConnections.toNat ≤ p.connectionLimit.toNat) :
    p.load = p.currentConnections.toNat / p.connectionLimit.toNat := by
  have hlt : (p.currentConnections / p.connectionLimit.toUInt32).toNat < 2 ^ 24 := by
    rw [UInt32.toNat_div]
    have := Nat.div_le_self p.currentConnections.toNat p.connectionLimit.toUInt32.toNat
    have := p.connectionLimit.toNat_lt
    omega
  rw [h, floatOfUint32_of_lt hlt, UInt32.toNat_div, UInt16.toNat_toUInt32]

/-- **The load is one at the limit and nowhere below it.** -/
theorem load_eq_one_iff (h : p.LoadOk) (hpos : p.connectionLimit ≠ 0)
    (hle : p.currentConnections.toNat ≤ p.connectionLimit.toNat) :
    p.load = 1 ↔ p.currentConnections.toNat = p.connectionLimit.toNat := by
  have hlimit : 0 < p.connectionLimit.toNat := by
    rw [Nat.pos_iff_ne_zero]
    exact fun h0 => hpos (UInt16.toNat_inj.mp h0)
  rw [h.eq_div hle, Nat.div_eq_iff hlimit]
  omega

/-- **Below the limit the load is zero**, whatever the number of connections. -/
theorem load_eq_zero (h : p.LoadOk)
    (hlt : p.currentConnections.toNat < p.connectionLimit.toNat) : p.load = 0 := by
  rw [h.eq_div hlt.le, Nat.div_eq_of_lt hlt]

end ProxyService

end Morfeusz.Proxyd
