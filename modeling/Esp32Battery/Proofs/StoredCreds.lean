import Esp32Battery.Proofs.NetAgreement

/-!
# The pair in NVS

A pair is stored key by key, so a reset between the two writes leaves the SSID of one pair with the
password of another.
-/

namespace Esp32Battery

open Lib

/-- Both keys of a pair are in NVS. -/
def Nvs.Stores (n : Nvs) (creds : WifiCredentials) : Prop :=
  n.ssid = some creds.ssid ∧ n.pass = some creds.password

namespace NetDevice

/-- A boot from here loads a pair that is known to work, or none. -/
def Trusted (d : NetDevice) : Prop :=
  ∀ tr creds t, netEnv.Run NvsCreds.load (.boot d.nvs d.known) tr (some (some creds)) t →
    creds ∈ d.known

/-- Where only the SSID of a save is written, the password next to it makes no pair with it, or a
known one. -/
def Paired (d : NetDevice) : Prop :=
  ∀ ssid password creds, d.unpaired = some ssid → d.nvs.pass = some password →
    WifiCredentials.new ssid password = .ok creds → creds ∈ d.known

end NetDevice

section Load

/-- Nothing is served yet, so nothing changes what is stored. -/
def Booting (nvs : Nvs) (d : NetDevice) : Prop := d.nvs = nvs ∧ d.served = none

variable (nvs : Nvs)

theorem booting_stable : netEnv.Stable (Booting nvs) := by
  intro d d' h hd
  obtain ⟨hnvs, hserved⟩ := hd
  rcases h with ⟨creds, _⟩ | ⟨k, _, _, _, _⟩ | ⟨k, hk⟩ | ⟨key, hup⟩ | hup
  · exact ⟨hnvs, hserved⟩
  · exact ⟨hnvs, hserved⟩
  · exact ⟨hnvs, hserved⟩
  · rw [hserved] at hup
    cases hup
  · rw [hserved] at hup
    cases hup

theorem readStr_holds (key : NvsKey) (size : ℕ) :
    netEnv.Holds (fun _ _ => True) (Booting nvs) (NvsCreds.readStr key size) fun r d =>
      Booting nvs d ∧ ∀ value, r = some value → nvs.get key = some value := by
  refine .perform_bind (fun r d => Booting nvs d ∧ ∀ value, r = .ok value → value = nvs.get key)
    (booting_stable nvs) (fun _ _ => trivial) ?_ ?_
  · intro d r d' hd ha
    obtain ⟨hallows, rfl⟩ := ha
    refine ⟨hd, fun value hvalue => ?_⟩
    rw [← hd.1]
    exact (hallows value hvalue).1
  · intro r
    have hstable : netEnv.Stable fun d => Booting nvs d ∧
        ∀ value, r = .ok value → value = nvs.get key :=
      fun _ _ hself hd => ⟨booting_stable nvs _ _ hself hd.1, hd.2⟩
    rcases r with e | value
    · exact .pure hstable fun d hd => ⟨hd.1, fun _ h => by cases h⟩
    · exact .pure hstable fun d hd => ⟨hd.1, fun _ h => (hd.2 value rfl).symm.trans h⟩

theorem load_holds : netEnv.Holds (fun _ _ => True) (Booting nvs) NvsCreds.load fun r _ =>
    ∀ creds, r = some creds → nvs.Stores creds := by
  have hnone : ∀ c : Prop, netEnv.Holds (fun _ _ => True) (fun d => Booting nvs d ∧ c)
      (pure none) fun r _ => ∀ creds, r = some creds → nvs.Stores creds := by
    intro c
    refine .pure (fun _ _ hself hd => ⟨booting_stable nvs _ _ hself hd.1, hd.2⟩) ?_
    intro d _ creds h
    cases h
  refine .bind (readStr_holds nvs .ssid _) fun r => ?_
  rcases r with _ | ssid
  · exact hnone _
  refine .assume (fun d hd => hd.2 ssid rfl) fun hssid => ?_
  refine .bind ((readStr_holds nvs .pass _).mono (fun d hd => hd.1) fun _ _ h => h) fun r => ?_
  rcases r with _ | password
  · exact hnone _
  refine .assume (fun d hd => hd.2 password rfl) fun hpass => ?_
  simp only []
  rcases hnew : WifiCredentials.new ssid password with e | creds
  · exact hnone _
  · refine .pure (fun _ _ hself hd => ⟨booting_stable nvs _ _ hself hd.1, hd.2⟩) ?_
    intro d _ creds' h
    cases h
    obtain ⟨rfl, rfl⟩ := WifiCredentials.new_eq_ok hnew
    exact ⟨hssid, hpass⟩

theorem readStr_run {d : NetDevice} {key : NvsKey} {size : ℕ} {value : String}
    (hvalue : d.nvs.get key = some value) (hfits : value.utf8ByteSize < size) :
    netEnv.Run (NvsCreds.readStr key size) d [(d, .getStr key size)] (some (some value)) d := by
  have hallows : d.Allows (.getStr key size) (.ok (some value)) := by
    intro value' hvalue'
    cases hvalue'
    refine ⟨hvalue.symm, fun s hs => ?_⟩
    cases hs
    exact hfits
  exact .call ⟨hallows, rfl⟩ (.done _ d)

theorem load_run {d : NetDevice} {creds : WifiCredentials} (h : d.nvs.Stores creds) :
    ∃ tr, netEnv.Run NvsCreds.load d tr (some (some creds)) d := by
  have hssid : creds.ssid.utf8ByteSize < ssidMax + 1 := Nat.lt_succ_of_le creds.ssid_le
  have hpass : creds.password.utf8ByteSize < passwordMax + 1 :=
    Nat.lt_succ_of_le (creds.password_le.trans (by decide))
  have hget₁ : d.nvs.get .ssid = some creds.ssid := h.1
  have hget₂ : d.nvs.get .pass = some creds.password := h.2
  have hdone : netEnv.Run (return some creds : NetProg (Option WifiCredentials)) d []
      (some (some creds)) d := .done _ d
  refine ⟨[(d, .getStr .ssid (ssidMax + 1))] ++ ([(d, .getStr .pass (passwordMax + 1))] ++ []),
    .bind (readStr_run hget₁ hssid) (.bind (readStr_run hget₂ hpass) ?_)⟩
  simp only [creds.new_self]
  exact hdone

theorem trusted_iff {d : NetDevice} :
    d.Trusted ↔ ∀ creds, d.nvs.Stores creds → creds ∈ d.known := by
  constructor
  · intro h creds hstores
    obtain ⟨tr, hrun⟩ := load_run (d := .boot d.nvs d.known) hstores
    exact h tr creds _ hrun
  · intro h tr creds t hrun
    have hboot : Booting d.nvs (.boot d.nvs d.known) := ⟨rfl, rfl⟩
    exact h creds ((load_holds d.nvs _ _ _ _ hboot hrun).2 _ rfl creds rfl)

end Load

section Save

/-- The SSID of a save stays as it was written until the password is. -/
def NetDevice.Waits (d : NetDevice) : Prop :=
  ∀ ssid, d.unpaired = some ssid → d.nvs.ssid = some ssid ∧ d.served ≠ some .dashboard

/-- Between two saves, a pair that is stored is known to work. -/
def NetDevice.Matched (d : NetDevice) : Prop :=
  d.unpaired = none → ∀ creds, d.nvs.Stores creds → creds ∈ d.known

theorem Handler.waits {d d' : NetDevice} (h : d.Handler d') (hd : d.Waits) : d'.Waits := by
  rcases h with ⟨creds, _⟩ | ⟨k, _, _, _, _⟩ | ⟨k, hk⟩ | ⟨key, hup⟩ | hup
  case remove =>
    intro ssid hssid
    exact ((hd ssid hssid).2 hup).elim
  all_goals exact hd

theorem Handler.matched {d d' : NetDevice} (h : d.Handler d') (hd : d.Matched) : d'.Matched := by
  rcases h with ⟨creds, _⟩ | ⟨k, _, _, _, _⟩ | ⟨k, hk⟩ | ⟨key, hup⟩ | hup
  case remove =>
    intro _ creds hstores
    rcases key with _ | _
    · cases hstores.1
    · cases hstores.2
  all_goals exact hd

theorem next_waits {d : NetDevice} {op : NetOp} (r : op.Reply) (hd : d.Waits)
    (hsound : Sound d.toOwned op) : (d.next op r).Waits := by
  cases op with
  | setStr key value =>
    rcases key with _ | _
    · intro ssid hssid
      cases hssid
      refine ⟨rfl, fun h => ?_⟩
      have hserved : d.served = some .captive := hsound.1
      change d.served = _ at h
      rw [hserved] at h
      cases h
    · intro ssid hssid
      cases hssid
  | startDashboard =>
    intro ssid hssid
    have hnone : d.unpaired = none := hsound
    change d.unpaired = _ at hssid
    rw [hnone] at hssid
    cases hssid
  | startCaptive | dropBundle | dropServer =>
    exact fun ssid hssid => ⟨(hd ssid hssid).1, by simp [NetDevice.next]⟩
  | apply action => rcases action <;> exact hd
  | _ => exact hd

theorem next_matched {d : NetDevice} {op : NetOp} (r : op.Reply) (hd : d.Matched)
    (hwaits : d.Waits) (hsound : Sound d.toOwned op) : (d.next op r).Matched := by
  cases op with
  | setStr key value =>
    rcases key with _ | _
    · intro h
      cases h
    · obtain ⟨creds, hknown, -, hvalue, hunpaired⟩ := hsound
      intro _ creds' hstores
      have hssid : d.nvs.ssid = some creds'.ssid := hstores.1
      have hpass : some value = some creds'.password := hstores.2
      rw [(hwaits _ hunpaired).1, Option.some.injEq] at hssid
      rw [hvalue, Option.some.injEq] at hpass
      rw [← WifiCredentials.ext hssid hpass]
      exact hknown
  | apply action =>
    rcases action
    case promoteToSta creds => exact fun h c hc => List.mem_cons_of_mem _ (hd h c hc)
    all_goals exact hd
  | _ => exact hd

variable {n : ℕ} {nvs : Nvs} {known : List WifiCredentials} {tr : List (NetDevice × NetOp)}
  {o : Option NetMain} {t : NetDevice}

theorem boot_waits : (NetDevice.boot nvs known).Waits := by
  intro ssid hssid
  cases hssid

theorem run_waits (h : netEnv.Run (NetMain.run n) (.boot nvs known) tr o t) : t.Waits := by
  have hans : ∀ (d : NetDevice) (op : NetOp) (r : op.Reply) (d' : NetDevice), d.Waits →
      Sound d.toOwned op → netEnv.answer d op r d' → d'.Waits := by
    intro d op r d' hd hop ha
    rw [ha.2]
    exact next_waits r hd hop
  exact h.keeps (I := NetDevice.Waits) (fun _ _ hs => Handler.waits hs) hans
    (NetMain.run_sound h) boot_waits

theorem run_matched (h : netEnv.Run (NetMain.run n) (.boot nvs known) tr o t)
    (htrusted : (NetDevice.boot nvs known).Trusted) : t.Matched := by
  have hans : ∀ (d : NetDevice) (op : NetOp) (r : op.Reply) (d' : NetDevice),
      d.Waits ∧ d.Matched → Sound d.toOwned op → netEnv.answer d op r d' →
      d'.Waits ∧ d'.Matched := by
    intro d op r d' hd hop ha
    rw [ha.2]
    exact ⟨next_waits r hd.1 hop, next_matched r hd.2 hd.1 hop⟩
  exact (h.keeps (I := fun d => d.Waits ∧ d.Matched)
    (fun _ _ hs hd => ⟨Handler.waits hs hd.1, Handler.matched hs hd.2⟩) hans
    (NetMain.run_sound h) ⟨boot_waits, fun _ => trusted_iff.1 htrusted⟩).2

/-- Where a life ends, it ends with a trusted pair if and only if no reset parted the writes. -/
theorem run_trusted_iff (h : netEnv.Run (NetMain.run n) (.boot nvs known) tr o t)
    (htrusted : (NetDevice.boot nvs known).Trusted) : t.Trusted ↔ t.Paired := by
  have hwaits := run_waits h
  rw [trusted_iff]
  constructor
  · intro hstores ssid password creds hssid hpass hnew
    obtain ⟨rfl, rfl⟩ := WifiCredentials.new_eq_ok hnew
    exact hstores creds ⟨(hwaits _ hssid).1, hpass⟩
  · intro hpaired creds hstores
    rcases hssid : t.unpaired with _ | ssid
    · exact run_matched h htrusted hssid creds hstores
    · have heq : some ssid = some creds.ssid := ((hwaits _ hssid).1).symm.trans hstores.1
      rw [Option.some.injEq] at heq
      exact hpaired ssid creds.password creds hssid hstores.2 (by rw [heq, creds.new_self])

end Save

/-- What happens between one reset and the next. -/
structure Life where
  turns : ℕ
  trace : List (NetDevice × NetOp)
  outcome : Option NetMain
  final : NetDevice

/-- Each life boots from what the last one stored. -/
def Boots (nvs : Nvs) (known : List WifiCredentials) : List Life → Prop
  | [] => True
  | l :: ls => netEnv.Run (NetMain.run l.turns) (.boot nvs known) l.trace l.outcome l.final ∧
      Boots l.final.nvs l.final.known ls

/-- Over any number of lives: whenever one ends, the next boot loads a pair that is known to work or
none, if and only if no life ends between the writes of a save, with a password that makes an
unknown pair with the new SSID. -/
theorem Boots.trusted_iff_paired {nvs : Nvs} {known : List WifiCredentials} {lives : List Life}
    (h : Boots nvs known lives) (htrusted : (NetDevice.boot nvs known).Trusted) :
    (∀ l ∈ lives, l.final.Trusted) ↔ ∀ l ∈ lives, l.final.Paired := by
  induction lives generalizing nvs known with
  | nil => simp
  | cons l ls ih =>
    obtain ⟨hrun, hrest⟩ := h
    rw [List.forall_mem_cons, List.forall_mem_cons, ← run_trusted_iff hrun htrusted]
    exact and_congr_right fun hl => ih hrest hl

/-- The life that a script leads. -/
def Script.life (script : Script) (n : ℕ) (nvs : Nvs) (known : List WifiCredentials) : Life :=
  let r := Env.play script.handle (NetMain.run n) (.boot nvs known)
  ⟨n, r.1, r.2.1, r.2.2⟩

theorem Script.life_boots (script : Script) (n : ℕ) (nvs : Nvs) (known : List WifiCredentials) :
    Boots nvs known [script.life n nvs known] := ⟨script.play_run _ _, trivial⟩

theorem Boots.trusted_iff_paired_welcomed : ∃ l, Boots ⟨none, none⟩ [] [l] ∧
    l.final.nvs = ⟨some "guest", some "battery staple"⟩ ∧ l.final.Trusted := by
  have hboots := Script.welcomed.life_boots 2 ⟨none, none⟩ []
  have hfinal : (Script.welcomed.life 2 ⟨none, none⟩ []).final.unpaired = none ∧
      (Script.welcomed.life 2 ⟨none, none⟩ []).final.nvs =
        ⟨some "guest", some "battery staple"⟩ := by decide +kernel
  generalize Script.welcomed.life 2 ⟨none, none⟩ [] = l at hboots hfinal
  have htrusted : (NetDevice.boot ⟨none, none⟩ []).Trusted := by
    refine trusted_iff.2 fun creds hstores => ?_
    cases hstores.1
  have hpaired : ∀ l' ∈ [l], l'.final.Paired := by
    intro l' hl' ssid password creds hssid
    rw [List.mem_singleton.1 hl', hfinal.1] at hssid
    cases hssid
  exact ⟨l, hboots, hfinal.2, (hboots.trusted_iff_paired htrusted).2 hpaired l (by simp)⟩

/-- The pair in NVS goes unanswered for two hours, a guest's pair works at once, and the power goes
when its SSID is written. -/
def Script.parted : Script where
  associates d := d.radio = .mixed (some guest)
  clock d := if d.served.isSome then captiveAfterDisconnect else .zero
  submits _ op := if op = .startCaptive then some guest else none
  stops op := match op with | .setStr .pass _ => true | _ => false

theorem Boots.trusted_parted :
    ¬ ∀ (nvs : Nvs) (known : List WifiCredentials) (lives : List Life),
      (NetDevice.boot nvs known).Trusted → Boots nvs known lives →
      ∀ l ∈ lives, l.final.Trusted := by
  intro h
  have hboots := Script.parted.life_boots 3 ⟨some "attic", some "correct horse"⟩ [Script.stored]
  have hfinal : (Script.parted.life 3 ⟨some "attic", some "correct horse"⟩
        [Script.stored]).final.nvs = ⟨some "guest", some "correct horse"⟩ ∧
      (Script.parted.life 3 ⟨some "attic", some "correct horse"⟩ [Script.stored]).final.known =
        [Script.guest, Script.stored] := by decide +kernel
  generalize Script.parted.life 3 _ [Script.stored] = l at hboots hfinal
  have htrusted :
      (NetDevice.boot ⟨some "attic", some "correct horse"⟩ [Script.stored]).Trusted := by
    refine trusted_iff.2 fun creds hstores => List.mem_singleton.2 ?_
    exact WifiCredentials.ext (Option.some.inj hstores.1).symm (Option.some.inj hstores.2).symm
  let mixed : WifiCredentials :=
    { Script.stored with ssid := "guest", ssid_ne := by decide, ssid_le := by decide }
  have hmem := trusted_iff.1 (h _ _ _ htrusted hboots l (by simp)) mixed
  rw [hfinal.1, hfinal.2] at hmem
  exact absurd (hmem ⟨rfl, rfl⟩) (by decide)

end Esp32Battery
