import EspHosted.Control.SetApConfig

/-!
# The join command

`set_softap_config_callback` copies two tokens of the command line into a cleared
station configuration, each as far as its field goes, and lets `wifi_set_ap_config`
check them there.
-/

namespace EspHosted

open EspHosted.Bytes

namespace Cli

open Control (ControlConfig CmdSetAPConfig StationConfig StaField wifiSetApConfigRequest
  ssidLength passwordLength bssidLength sizeofControlConfig)

theorem fits (f : StaField) {n : ℕ} (h : n ≤ f.size) (src : List UInt8) :
    f.offset + (strncpy src n).length ≤ sizeofControlConfig := by
  have hfield : f.offset + f.size ≤ sizeofControlConfig := by
    cases f <;> decide
  rw [length_strncpy]
  omega

/-- `set_softap_config_callback` up to the request -/
def setSoftapConfigCallback (argv : List (List UInt8)) (beyond : List UInt8) :
    Option CmdSetAPConfig :=
  match argv with
  | _ :: ssid :: password :: _ =>
      let apConfig := ControlConfig.zero
      let apConfig := apConfig.store .ssid (strncpy ssid (min ssidLength (strlen ssid + 1)))
        (fits .ssid (Nat.min_le_left _ _) ssid)
      let apConfig := apConfig.store .pwd
        (strncpy password (min passwordLength (strlen password + 1)))
        (fits .pwd (Nat.min_le_left _ _) password)
      wifiSetApConfigRequest apConfig beyond
  | _ => none

/-- A token of the command line. -/
abbrev Token := { t : List UInt8 // t ≠ [] ∧ 0 ∉ t }

/-- The configuration that the tokens are cut down to. -/
def joinConfig (ssid password : Token) : StationConfig where
  ssid := ssid.1.take ssidLength
  pwd := password.1.take passwordLength
  bssid := []
  isWpa3Supported := false
  listenInterval := 0
  unread := Control.noUnread
  ssid_pos := by
    have hpos := List.length_pos_iff.2 ssid.2.1
    rw [List.length_take]
    exact Nat.lt_min.2 ⟨by decide, hpos⟩
  ssid_le := List.length_take_le _ _
  ssid_text := fun h => ssid.2.2 (List.mem_of_mem_take h)
  pwd_le := List.length_take_le _ _
  pwd_text := fun h => password.2.2 (List.mem_of_mem_take h)
  bssid_le := Control.length_nil_le_bssidLength
  bssid_text := Control.zero_not_mem_nil

/-- The two copies store that configuration. -/
theorem setSoftapConfigCallback_eq (name : List UInt8) (ssid password : Token)
    (args : List (List UInt8)) (beyond : List UInt8) :
    setSoftapConfigCallback (name :: ssid.1 :: password.1 :: args) beyond =
      wifiSetApConfigRequest (joinConfig ssid password).memory beyond := by
  have hzero : List.replicate sizeofControlConfig (0 : UInt8) =
      [] ++ (List.replicate ssidLength 0 ++
        (List.replicate passwordLength 0 ++ List.replicate 48 0)) := by decide
  have hothers : padTo bssidLength [] ++ (joinConfig ssid password).others =
      List.replicate 48 0 := by
    change padTo bssidLength [] ++ (0 :: (List.replicate 14 0 ++
      ([lowByte 0, highByte 0] ++ List.replicate 14 0))) = _
    decide
  have hssidLength : (strncpy ssid.1 (min ssidLength (strlen ssid.1 + 1))).length ≤
      ssidLength := by
    rw [length_strncpy]
    exact Nat.min_le_left _ _
  have hpwdLength : (strncpy password.1 (min passwordLength (strlen password.1 + 1))).length ≤
      passwordLength := by
    rw [length_strncpy]
    exact Nat.min_le_left _ _
  have hssid : patch (List.replicate sizeofControlConfig 0) 0
      (strncpy ssid.1 (min ssidLength (strlen ssid.1 + 1))) =
        padTo ssidLength (ssid.1.take ssidLength) ++
          (List.replicate passwordLength 0 ++ List.replicate 48 0) := by
    rw [hzero, patch_cleared List.length_nil hssidLength, padTo_strncpy_min ssid.2.2,
      List.nil_append]
  have hpwd : patch (padTo ssidLength (ssid.1.take ssidLength) ++
      (List.replicate passwordLength 0 ++ List.replicate 48 0)) 32
      (strncpy password.1 (min passwordLength (strlen password.1 + 1))) =
        (joinConfig ssid password).bytes := by
    have hfield : (padTo ssidLength (ssid.1.take ssidLength)).length = 32 :=
      length_padTo (List.length_take_le _ _)
    rw [patch_cleared hfield hpwdLength,
      padTo_strncpy_min password.2.2, ← hothers]
    rfl
  have hmemory : patch (patch (List.replicate sizeofControlConfig 0) 0
      (strncpy ssid.1 (min ssidLength (strlen ssid.1 + 1)))) 32
      (strncpy password.1 (min passwordLength (strlen password.1 + 1))) =
        (joinConfig ssid password).bytes := by
    rw [hssid, hpwd]
  exact congrArg (fun m => wifiSetApConfigRequest m beyond) (Subtype.ext hmemory)

/-- A request that is sent carries the two tokens as they were given. -/
def Unaltered (ssid password : List UInt8) (r : Option CmdSetAPConfig) : Prop :=
  ∀ req, r = some req → req.ssid = ssid ∧ req.pwd = password

/-- An `ssid` that does not leave room for its NUL is refused, because a password follows;
any other goes out with the password cut down to its field. -/
theorem join_unaltered_iff (name : List UInt8) (ssid password : Token)
    (args : List (List UInt8)) (beyond : List UInt8) :
    Unaltered ssid.1 password.1
        (setSoftapConfigCallback (name :: ssid.1 :: password.1 :: args) beyond) ↔
      ssidLength ≤ ssid.1.length ∨ password.1.length ≤ passwordLength := by
  rw [setSoftapConfigCallback_eq]
  by_cases hssid : ssidLength ≤ ssid.1.length
  · have hfull : ¬ (joinConfig ssid password).Separated .ssid := by
      intro hsep
      have hends : password.1.take passwordLength = [] := by
        apply hsep
        change (ssid.1.take ssidLength).length = ssidLength
        rw [List.length_take, Nat.min_eq_left hssid]
      have hlen := congrArg List.length hends
      have hpos := List.length_pos_iff.2 password.2.1
      rw [List.length_take, List.length_nil] at hlen
      have hsize : passwordLength = 64 := rfl
      omega
    rw [StationConfig.request_of_not_separated hfull]
    refine iff_of_true ?_ (Or.inl hssid)
    intro req hreq
    cases hreq
  · have htake : ssid.1.take ssidLength = ssid.1 :=
      List.take_of_length_le (Nat.le_of_not_le hssid)
    have hsep : ∀ f, (joinConfig ssid password).Separated f := by
      intro f
      cases f with
      | ssid =>
          intro hfull
          change (ssid.1.take ssidLength).length = ssidLength at hfull
          rw [htake] at hfull
          exact absurd (Nat.le_of_eq hfull.symm) hssid
      | pwd => exact fun _ => rfl
      | bssid => exact fun _ => rfl
    rw [StationConfig.request_of_separated hsep]
    constructor
    · intro h
      have hpwd : password.1.take passwordLength = password.1 := (h _ rfl).2
      right
      rw [← hpwd]
      exact List.length_take_le _ _
    · intro h req hreq
      cases hreq
      exact ⟨htake, List.take_of_length_le (h.resolve_left hssid)⟩

/-- A password of 65 characters. -/
def longPassword : Token := ⟨List.replicate 65 112, by decide, by decide⟩

/-- Its first 64 characters are sent. -/
theorem long_password_shortened :
    (setSoftapConfigCallback [[106], [115], longPassword.1] []).map CmdSetAPConfig.pwd =
        some (List.replicate 64 112) ∧
      ¬ Unaltered [115] longPassword.1
        (setSoftapConfigCallback [[106], [115], longPassword.1] []) := by
  have hsent : (setSoftapConfigCallback [[106], [115], longPassword.1] []).map
      CmdSetAPConfig.pwd = some (List.replicate 64 112) := by decide +kernel
  refine ⟨hsent, ?_⟩
  intro h
  obtain ⟨req, hreq, hpwd⟩ := Option.map_eq_some_iff.1 hsent
  rw [(h req hreq).2] at hpwd
  have hlen := congrArg List.length hpwd
  revert hlen
  decide

end Cli

end EspHosted
