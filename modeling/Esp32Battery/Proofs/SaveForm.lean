import Esp32Battery.Http.Save

/-!
# What `/save` queues

Whatever pieces a body comes in, what is queued is the whole of what its last fields decode to. A
buffer one byte past the limit is enough: a value cut short in it is too long.
-/

namespace Esp32Battery

open Lib

/-- A request: the rest of its body, what was queued for it and how it was answered. -/
structure Exchange where
  rest : List UInt8
  queued : List WifiCredentials
  replies : List Response
deriving DecidableEq

/-- The connection a body comes in on, its reads as large as it likes. -/
def connection (mayFail : Prop) : Env Exchange SaveOp SaveOp.Reply where
  self _ _ := False
  answer s op r s' := match op, r with
    | .read n, r => Delivers mayFail n s.rest r s'.rest ∧ s'.queued = s.queued ∧
        s'.replies = s.replies
    | .setMailbox creds, _ => s' = { s with queued := s.queued ++ [creds] }
    | .setStatus _, _ => s' = s
    | .reply response, _ => s' = { s with replies := s.replies ++ [response] }

/-- The last fields of `body` decode to the pair, `pass` being empty where there is none. -/
structure Asks (body : List UInt8) (creds : WifiCredentials) : Prop where
  fits : body.length ≤ 384
  text : ∃ s, utf8 s = body
  ssid : ∃ raw, lastValue body (utf8 "ssid") = some raw ∧ utf8 creds.ssid = percentDecode raw
  password : utf8 creds.password = percentDecode ((lastValue body (utf8 "pass")).getD [])

theorem Asks.unique {body : List UInt8} {creds creds' : WifiCredentials} (h : Asks body creds)
    (h' : Asks body creds') : creds = creds' := by
  obtain ⟨raw, hraw, hssid⟩ := h.ssid
  obtain ⟨raw', hraw', hssid'⟩ := h'.ssid
  rw [hraw] at hraw'
  cases hraw'
  refine WifiCredentials.ext ?_ ?_
  · rw [← utf8_inj, hssid, hssid']
  · rw [← utf8_inj, h.password, h'.password]

theorem decodeValue_eq (raw : List UInt8) (size : ℕ) :
    decodeValue raw size = fromUtf8 ((percentDecode raw).take size) := by
  have h := (urlDecode_eq raw (List.replicate size 0)).2
  rw [List.length_replicate] at h
  exact congrArg fromUtf8 h

/-- A value that is shorter than its buffer was not cut. -/
theorem decodeValue_eq_some {raw : List UInt8} {size : ℕ} {s : String}
    (h : decodeValue raw size = some s) (hs : s.utf8ByteSize < size) :
    utf8 s = percentDecode raw := by
  rw [decodeValue_eq, fromUtf8_eq_some] at h
  have hlen := congrArg List.length h
  rw [length_utf8, List.length_take] at hlen
  rw [h, List.take_of_length_le (by omega)]

theorem decodeValue_of_utf8 {raw : List UInt8} {size : ℕ} {s : String}
    (h : utf8 s = percentDecode raw) (hs : s.utf8ByteSize ≤ size) :
    decodeValue raw size = some s := by
  rw [decodeValue_eq, fromUtf8_eq_some, ← h,
    List.take_of_length_le (by rw [length_utf8]; exact hs)]

variable {mayFail : Prop} {body : List UInt8}

theorem asks_iff {creds : WifiCredentials} : Asks body creds ↔ body.length ≤ 384 ∧
    (fromUtf8 body).isSome = true ∧ ∃ ssid pass, parseForm body = some (ssid, pass) ∧
      decodeValue ssid (ssidMax + 1) = some creds.ssid ∧
      decodeValue pass (passwordMax + 1) = some creds.password := by
  have hssid := creds.ssid_le
  have hpass := creds.password_le
  have hmax : ssidMax = 32 := rfl
  have hmax' : passwordMax = 64 := rfl
  rw [parseForm_eq]
  constructor
  · rintro ⟨hfits, ⟨text, rfl⟩, ⟨raw, hraw, hs⟩, hp⟩
    refine ⟨hfits, by rw [fromUtf8_utf8]; rfl, raw, _, by rw [hraw]; rfl, ?_, ?_⟩
    · exact decodeValue_of_utf8 hs (by omega)
    · exact decodeValue_of_utf8 hp (by omega)
  · rintro ⟨hfits, htext, ssid, pass, hparse, hs, hp⟩
    obtain ⟨text, htext⟩ := Option.isSome_iff_exists.1 htext
    rw [Option.map_eq_some_iff] at hparse
    obtain ⟨raw, hraw, hpair⟩ := hparse
    cases hpair
    exact ⟨hfits, ⟨text, fromUtf8_eq_some.1 htext⟩,
      ⟨ssid, hraw, decodeValue_eq_some hs (by omega)⟩, decodeValue_eq_some hp (by omega)⟩

/-- Only what the body asks for is queued. -/
def SafeSave (body : List UInt8) (_ : Exchange) (op : SaveOp) : Prop :=
  ∀ creds, op = .setMailbox creds → Asks body creds

def Untouched (s : Exchange) : Prop := s.queued = [] ∧ s.replies = []

theorem stable (P : Exchange → Prop) : (connection mayFail).Stable P := fun _ _ h => h.elim

/-- What one read leaves, `filled` having been read before it. -/
def AfterRead (mayFail : Prop) (body filled : List UInt8) (n : ℕ)
    (r : Except EspError (List UInt8)) (s : Exchange) : Prop :=
  Untouched s ∧ match r with
    | .error _ => mayFail
    | .ok bytes => filled ++ bytes ++ s.rest = body ∧ bytes.length ≤ n ∧ (bytes = [] → s.rest = [])

theorem read_holds {α : Type} {n : ℕ} (hn : 0 < n) (filled : List UInt8)
    {k : Except EspError (List UInt8) → SaveProg α} {Q : α → Exchange → Prop}
    (hk : ∀ r, (connection mayFail).Holds (SafeSave body) (AfterRead mayFail body filled n r)
      (k r) Q) :
    (connection mayFail).Holds (SafeSave body) (fun s => filled ++ s.rest = body ∧ Untouched s)
      (SaveOp.perform (.read n) >>= k) Q := by
  refine .perform_bind (AfterRead mayFail body filled n) (stable _)
    (fun s _ creds h => by cases h) ?_ hk
  rintro s r s' ⟨hbody, hs⟩ ⟨hd, hqueued, hreplies⟩
  obtain ⟨rest, queued, replies⟩ := s
  simp only [] at hbody hd hqueued hreplies
  refine ⟨⟨hqueued.trans hs.1, hreplies.trans hs.2⟩, ?_⟩
  rcases r with e | bytes
  · exact hd.error
  · obtain ⟨hrest, hle, hempty⟩ := hd.ok
    refine ⟨by rw [List.append_assoc, hrest, hbody], hle, fun h => ?_⟩
    rcases hempty h with h0 | h0
    · omega
    · exact h0

/-- What reading into a buffer of `cap` bytes comes to. -/
def Buffered (mayFail : Prop) (body : List UInt8) (cap : ℕ) :
    Except EspError (Option (List UInt8)) → Prop
  | .error _ => mayFail
  | .ok none => cap < body.length
  | .ok (some b) => b = body ∧ body.length ≤ cap

theorem readToBuf_holds (cap : ℕ) (filled : List UInt8) (hfilled : filled.length ≤ cap) :
    (connection mayFail).Holds (SafeSave body) (fun s => filled ++ s.rest = body ∧ Untouched s)
      (readToBuf cap filled) fun r s => Untouched s ∧ Buffered mayFail body cap r := by
  unfold readToBuf
  split_ifs with hlt
  · refine read_holds (by omega) filled ?_
    rintro (e | bytes)
    · exact .pure (stable _) fun s h => h
    · simp only []
      split_ifs with hempty
      · refine .pure (stable _) fun s h => ⟨h.1, ?_⟩
        obtain ⟨hbody, -, hend⟩ := h.2
        rw [hend hempty, hempty, List.append_nil, List.append_nil] at hbody
        exact ⟨hbody, by rw [← hbody]; exact hfilled⟩
      · refine .assume (c := (filled ++ bytes).length ≤ cap) (fun s h => ?_) fun hle => ?_
        · have := h.2.2.1
          rw [List.length_append]
          omega
        have hpos := List.length_pos_of_ne_nil hempty
        exact (readToBuf_holds cap (filled ++ bytes) hle).mono (fun s h => ⟨h.2.1, h.1⟩)
          fun _ _ h => h
  · refine read_holds (by omega) filled ?_
    rintro (e | _ | ⟨b, bytes⟩)
    · exact .pure (stable _) fun s h => h
    · refine .pure (stable _) fun s h => ⟨h.1, ?_⟩
      obtain ⟨hbody, -, hend⟩ := h.2
      rw [hend rfl, List.append_nil, List.append_nil] at hbody
      exact ⟨hbody, by rw [← hbody]; exact hfilled⟩
    · refine .pure (stable _) fun s h => ⟨h.1, ?_⟩
      have hbody := congrArg List.length h.2.1
      simp only [List.length_append, List.length_cons] at hbody
      show cap < body.length
      omega
termination_by cap - filled.length
decreasing_by
  rw [List.length_append]
  omega

/-- How the handler leaves a request whose reads all succeeded. -/
structure Settled (body : List UInt8) (t : Exchange) : Prop where
  accepts : ∀ creds, Asks body creds → t.queued = [creds] ∧ t.replies = [⟨200, none⟩]
  rejects : (¬ ∃ creds, Asks body creds) → t.queued = [] ∧
    ∃ status msg, (status = 400 ∨ status = 413) ∧ t.replies = [⟨status, some msg⟩]

theorem jsonErr_holds {status : ℕ} (hstatus : status = 400 ∨ status = 413) (msg : String)
    (hno : ¬ ∃ creds, Asks body creds) :
    (connection mayFail).Holds (SafeSave body) Untouched (jsonErr status msg)
      fun _ t => ¬ mayFail → Settled body t := by
  refine .perform (stable _) (fun s _ creds h => by cases h) ?_ fun r => stable _
  rintro s r s' hs h -
  refine ⟨fun creds hasks => absurd ⟨creds, hasks⟩ hno, fun _ => ?_⟩
  rw [show s' = { s with replies := s.replies ++ [⟨status, some msg⟩] } from h]
  exact ⟨hs.1, status, msg, hstatus, by simp only [hs.2, List.nil_append]⟩

theorem save_holds : (connection mayFail).Holds (SafeSave body)
    (fun s => s.rest = body ∧ Untouched s) save fun _ t => ¬ mayFail → Settled body t := by
  unfold save
  refine .bind ((readToBuf_holds 384 [] (Nat.zero_le _)).mono (fun s h => h) fun _ _ h => h) ?_
  rintro (e | _ | b)
  · exact .pure (stable _) fun s h hn => absurd h.2 hn
  · refine .assume (c := 384 < body.length) (fun s h => h.2) fun hlong => ?_
    refine (jsonErr_holds (.inr rfl) _ ?_).mono (fun s h => h.1) fun _ _ h => h
    rintro ⟨creds, hasks⟩
    have := hasks.fits
    omega
  · refine .assume (c := b = body ∧ body.length ≤ 384) (fun s h => h.2) ?_
    rintro ⟨rfl, hfits⟩
    have hreject : ∀ {status : ℕ} {msg : String}, status = 400 →
        (¬ ∃ creds, Asks b creds) → (connection mayFail).Holds (SafeSave b)
          (fun s => Untouched s ∧ Buffered mayFail b 384 (.ok (some b))) (jsonErr status msg)
          fun _ t => ¬ mayFail → Settled b t := by
      intro status msg hstatus hno
      exact (jsonErr_holds (.inl hstatus) msg hno).mono (fun s h => h.1) fun _ _ h => h
    simp only []
    split_ifs with htext
    · refine hreject rfl ?_
      rintro ⟨creds, hasks⟩
      obtain ⟨text, hsome⟩ := Option.isSome_iff_exists.1 (asks_iff.1 hasks).2.1
      rw [hsome] at htext
      cases htext
    rcases hparse : parseForm b with _ | ⟨ssidRaw, passRaw⟩
    · refine hreject rfl ?_
      rintro ⟨creds, hasks⟩
      obtain ⟨-, -, ssid, pass, h, -⟩ := asks_iff.1 hasks
      rw [hparse] at h
      cases h
    have hasks : ∀ {creds}, Asks b creds → decodeValue ssidRaw (ssidMax + 1) = some creds.ssid ∧
        decodeValue passRaw (passwordMax + 1) = some creds.password := by
      intro creds h
      obtain ⟨-, -, ssid, pass, h, hvalues⟩ := asks_iff.1 h
      rw [hparse] at h
      cases h
      exact hvalues
    simp only []
    rcases hssid : decodeValue ssidRaw (ssidMax + 1) with _ | ssid
    · refine hreject rfl ?_
      rintro ⟨creds, h⟩
      rw [hssid] at hasks
      cases (hasks h).1
    simp only []
    rcases hpass : decodeValue passRaw (passwordMax + 1) with _ | password
    · refine hreject rfl ?_
      rintro ⟨creds, h⟩
      rw [hpass] at hasks
      cases (hasks h).2
    rw [hssid, hpass] at hasks
    simp only []
    rcases hnew : WifiCredentials.new ssid password with e | creds
    · refine hreject rfl ?_
      rintro ⟨creds, h⟩
      obtain ⟨h₁, h₂⟩ := hasks h
      cases h₁
      cases h₂
      rw [creds.new_self] at hnew
      cases hnew
    · obtain ⟨rfl, rfl⟩ := WifiCredentials.new_eq_ok hnew
      have htext' : (fromUtf8 b).isSome = true := by
        rwa [← Option.not_isNone, Bool.not_eq_true', ← Bool.not_eq_true]
      have hthis : Asks b creds :=
        asks_iff.2 ⟨hfits, htext', ssidRaw, passRaw, hparse, hssid, hpass⟩
      have hcreds : ∀ creds', Asks b creds' → creds' = creds := fun creds' h => h.unique hthis
      let Queued : Exchange → Prop := fun s => s.queued = [creds] ∧ s.replies = []
      refine .perform_bind (fun _ => Queued) (stable _) ?_ ?_ fun _ => ?_
      · intro s _ creds' h
        cases h
        exact hthis
      · intro s r s' hs h
        rw [show s' = { s with queued := s.queued ++ [creds] } from h]
        exact ⟨by simp only [hs.1.1, List.nil_append], hs.1.2⟩
      refine .perform_bind (fun _ => Queued) (stable _) (fun s _ creds' h => by cases h) ?_
        fun _ => ?_
      · intro s r s' hs h
        rw [show s' = s from h]
        exact hs
      refine .perform (stable _) (fun s _ creds' h => by cases h) ?_ fun _ => stable _
      intro s r s' hs h _
      rw [show s' = { s with replies := s.replies ++ [⟨200, none⟩] } from h]
      refine ⟨fun creds' h => ?_, fun hno => absurd ⟨creds, hthis⟩ hno⟩
      rw [hcreds creds' h]
      exact ⟨hs.1, by simp only [hs.2, List.nil_append]⟩

/-- The body the captive page sends. -/
def submission (ssid password : String) : List UInt8 :=
  utf8 "ssid=" ++ percentEncode (utf8 ssid) ++ utf8 "&pass=" ++ percentEncode (utf8 password)

theorem lastValue_submission (ssid password : String) :
    lastValue (submission ssid password) (utf8 "ssid") = some (percentEncode (utf8 ssid)) ∧
      lastValue (submission ssid password) (utf8 "pass")
        = some (percentEncode (utf8 password)) := by
  have hclean : ∀ {key s : String}, 0x26 ∉ utf8 key →
      0x26 ∉ utf8 key ++ percentEncode (utf8 s) := by
    intro key s hkey h
    rcases List.mem_append.1 h with h | h
    · exact hkey h
    · exact (ascii_of_mem_percentEncode h).2 rfl
  have hsplit : (submission ssid password).splitOn 0x26 =
      [utf8 "ssid=" ++ percentEncode (utf8 ssid),
        utf8 "pass=" ++ percentEncode (utf8 password)] := by
    have hbody : submission ssid password = utf8 "ssid=" ++ percentEncode (utf8 ssid) ++
        0x26 :: (utf8 "pass=" ++ percentEncode (utf8 password)) := by
      have hamp : utf8 "&pass=" = 0x26 :: utf8 "pass=" := by decide
      unfold submission
      rw [hamp, List.append_assoc, List.cons_append]
    rw [hbody, List.splitOn_append_cons_of_beq _ _ (by decide),
      List.splitOn_eq_singleton (hclean (by decide)),
      List.splitOn_eq_singleton (hclean (by decide))]
    rfl
  have hpair : ∀ key : String, 0x3D ∉ utf8 key → ∀ value,
      splitOnce 0x3D (utf8 key ++ 0x3D :: value) = some (utf8 key, value) :=
    fun key h value => splitOnce_append h value
  have hssid : splitOnce 0x3D (utf8 "ssid=" ++ percentEncode (utf8 ssid)) =
      some (utf8 "ssid", percentEncode (utf8 ssid)) := hpair "ssid" (by decide) _
  have hpass : splitOnce 0x3D (utf8 "pass=" ++ percentEncode (utf8 password)) =
      some (utf8 "pass", percentEncode (utf8 password)) := hpair "pass" (by decide) _
  have hne : utf8 "ssid" ≠ utf8 "pass" := by decide
  unfold lastValue lastOf
  rw [hsplit]
  simp [hssid, hpass, hne, hne.symm]

theorem asks_submission (creds : WifiCredentials) :
    Asks (submission creds.ssid creds.password) creds := by
  obtain ⟨hssid, hpass⟩ := lastValue_submission creds.ssid creds.password
  refine ⟨?_, exists_utf8_of_ascii ?_, ⟨_, hssid, ?_⟩, ?_⟩
  · have h₁ := length_percentEncode_le (utf8 creds.ssid)
    have h₂ := length_percentEncode_le (utf8 creds.password)
    have h₃ := creds.ssid_le
    have h₄ := creds.password_le
    have hmax : ssidMax = 32 := rfl
    rw [length_utf8] at h₁ h₂
    have hkey : (utf8 "ssid=").length = 5 := rfl
    have hkey' : (utf8 "&pass=").length = 6 := rfl
    simp only [submission, List.length_append, hkey, hkey']
    omega
  · intro b hb
    have hkey : ∀ b ∈ utf8 "ssid=", b.toNat < 128 := by decide +kernel
    have hkey' : ∀ b ∈ utf8 "&pass=", b.toNat < 128 := by decide +kernel
    unfold submission at hb
    simp only [List.mem_append] at hb
    rcases hb with ((hb | hb) | hb) | hb
    · exact hkey b hb
    · exact (ascii_of_mem_percentEncode hb).1
    · exact hkey' b hb
    · exact (ascii_of_mem_percentEncode hb).1
  · rw [percentDecode_percentEncode]
  · rw [hpass, Option.getD_some, percentDecode_percentEncode]

/-- The body, or a value in it, is longer than its limit. -/
def TooLong (body : List UInt8) : Prop :=
  384 < body.length ∨
    (∃ raw, lastValue body (utf8 "ssid") = some raw ∧ 32 < (percentDecode raw).length) ∨
    63 < (percentDecode ((lastValue body (utf8 "pass")).getD [])).length

theorem Asks.not_tooLong {creds : WifiCredentials} (h : Asks body creds) : ¬ TooLong body := by
  rintro (hlong | ⟨raw, hraw, hlong⟩ | hlong)
  · have := h.fits
    omega
  · obtain ⟨raw', hraw', hssid⟩ := h.ssid
    rw [hraw] at hraw'
    cases hraw'
    have := creds.ssid_le
    have hmax : ssidMax = 32 := rfl
    rw [← hssid, length_utf8] at hlong
    omega
  · have := creds.password_le
    rw [← h.password, length_utf8] at hlong
    omega

/-- However a body is delivered, what the captive page sends is queued as it was typed; what is
queued is the whole of what the body says; and what is too long is turned down. -/
theorem save_lossless {tr : List (Exchange × SaveOp)} {o : Option (Except EspError Unit)}
    {t : Exchange} (h : (connection mayFail).Run save ⟨body, [], []⟩ tr o t) :
    (∀ ssid password : String, 1 ≤ (utf8 ssid).length → (utf8 ssid).length ≤ 32 →
      ((utf8 password).length = 0 ∨ 8 ≤ (utf8 password).length ∧ (utf8 password).length ≤ 63) →
      body = submission ssid password → ¬ mayFail → o ≠ none →
      t.queued.map (fun creds => (creds.ssid, creds.password)) = [(ssid, password)]) ∧
    (∀ e ∈ tr, ∀ creds, e.2 = .setMailbox creds →
      (∃ raw, lastValue body (utf8 "ssid") = some raw ∧ utf8 creds.ssid = percentDecode raw) ∧
      utf8 creds.password = percentDecode ((lastValue body (utf8 "pass")).getD []) ∧
      1 ≤ (utf8 creds.ssid).length ∧ (utf8 creds.ssid).length ≤ 32 ∧
      ((utf8 creds.password).length = 0 ∨
        8 ≤ (utf8 creds.password).length ∧ (utf8 creds.password).length ≤ 63)) ∧
    (TooLong body → (∀ e ∈ tr, ∀ creds, e.2 ≠ .setMailbox creds) ∧
      (¬ mayFail → o ≠ none → t.queued = [] ∧ ∃ status msg, (status = 400 ∨ status = 413) ∧
        t.replies = [⟨status, some msg⟩])) := by
  obtain ⟨hsafe, hpost⟩ := save_holds _ _ _ _ ⟨rfl, rfl, rfl⟩ h
  have hsettled : ¬ mayFail → o ≠ none → Settled body t := by
    intro hfail ho
    obtain ⟨r, hr⟩ := Option.ne_none_iff_exists'.1 ho
    exact hpost r hr hfail
  refine ⟨?_, ?_, fun hlong => ⟨?_, fun hfail ho => ?_⟩⟩
  · intro ssid password hpos hle hpass hbody hfail ho
    let creds : WifiCredentials := {
      ssid
      password
      ssid_ne := by rw [← length_utf8]; omega
      ssid_le := hle
      password_len := fun hne => hpass.resolve_left hne }
    have hqueued := ((hsettled hfail ho).accepts creds (hbody ▸ asks_submission creds)).1
    rw [hqueued]
    rfl
  · intro e he creds hop
    have hasks := hsafe e he creds hop
    have hssid : 0 < (utf8 creds.ssid).length := Nat.pos_of_ne_zero creds.ssid_ne
    refine ⟨hasks.ssid, hasks.password, hssid, creds.ssid_le, ?_⟩
    by_cases hempty : (utf8 creds.password).length = 0
    · exact .inl hempty
    · exact .inr (creds.password_len hempty)
  · intro e he creds hop
    exact (hsafe e he creds hop).not_tooLong hlong
  · exact (hsettled hfail ho).rejects fun ⟨creds, hasks⟩ => hasks.not_tooLong hlong

/-- A connection that delivers five bytes at a time. -/
def trickle (s : Exchange) : (op : SaveOp) → op.Reply × Exchange
  | .read n => (.ok (s.rest.take (min n 5)), { s with rest := s.rest.drop (min n 5) })
  | .setMailbox creds => ((), { s with queued := s.queued ++ [creds] })
  | .setStatus _ => ((), s)
  | .reply response => (.ok (), { s with replies := s.replies ++ [response] })

theorem trickle_answer (s : Exchange) (op : SaveOp) :
    (connection False).answer s op (trickle s op).1 (trickle s op).2 := by
  cases op with
  | read n => exact ⟨.take _ n (by omega) s.rest, rfl, rfl⟩
  | setMailbox | setStatus | reply => rfl

/-- A submission with a byte to escape, trickling in. -/
theorem save_lossless_trickle : ∃ tr o t,
    (connection False).Run save ⟨submission "My Net" "pass word", [], []⟩ tr o t ∧
      t.queued.map (fun creds => (creds.ssid, creds.password)) = [("My Net", "pass word")] := by
  have hrun := Env.exec_run trickle_answer save ⟨submission "My Net" "pass word", [], []⟩
  exact ⟨_, _, _, hrun, (save_lossless hrun).1 "My Net" "pass word" (by decide) (by decide)
    (by decide) rfl id (by simp)⟩

end Esp32Battery
