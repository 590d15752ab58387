import Mathlib

/-!
# WiFi credentials

A pair is built by `new` alone, whoever it comes from: the captive form and the NVS values are
both untrusted.
-/

namespace Esp32Battery

def ssidMax : ℕ := 32

def passwordMax : ℕ := 64

inductive CredentialsError where
  | ssidEmpty
  | ssidTooLong
  | passwordLength
deriving DecidableEq

def CredentialsError.message : CredentialsError → String
  | ssidEmpty => "SSID must not be empty"
  | ssidTooLong => "SSID must be at most 32 characters"
  | passwordLength => "password must be empty or 8-63 characters"

@[ext]
structure WifiCredentials where
  ssid : String
  password : String
  ssid_ne : ssid.utf8ByteSize ≠ 0
  ssid_le : ssid.utf8ByteSize ≤ ssidMax
  password_len : password.utf8ByteSize ≠ 0 →
    8 ≤ password.utf8ByteSize ∧ password.utf8ByteSize ≤ 63
deriving DecidableEq

namespace WifiCredentials

def new (ssid password : String) : Except CredentialsError WifiCredentials :=
  if h₁ : ssid.utf8ByteSize = 0 then .error .ssidEmpty
  else if h₂ : ssidMax < ssid.utf8ByteSize then .error .ssidTooLong
  else if h₃ : password.utf8ByteSize ≠ 0 ∧
      ¬ (8 ≤ password.utf8ByteSize ∧ password.utf8ByteSize ≤ 63) then .error .passwordLength
  else .ok {
    ssid
    password
    ssid_ne := h₁
    ssid_le := Nat.le_of_not_lt h₂
    password_len := fun h => by_contra fun hn => h₃ ⟨h, hn⟩ }

theorem password_le (creds : WifiCredentials) : creds.password.utf8ByteSize ≤ 63 := by
  by_cases h : creds.password.utf8ByteSize = 0
  · omega
  · exact (creds.password_len h).2

theorem new_eq_ok {ssid password : String} {creds : WifiCredentials}
    (h : new ssid password = .ok creds) : creds.ssid = ssid ∧ creds.password = password := by
  unfold new at h
  split_ifs at h
  cases h
  exact ⟨rfl, rfl⟩

theorem new_self (creds : WifiCredentials) : new creds.ssid creds.password = .ok creds := by
  unfold new
  rw [dif_neg creds.ssid_ne, dif_neg (Nat.not_lt.2 creds.ssid_le),
    dif_neg fun h => h.2 (creds.password_len h.1)]

end WifiCredentials

end Esp32Battery
