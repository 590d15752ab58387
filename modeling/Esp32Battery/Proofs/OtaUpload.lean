import Esp32Battery.Http.Ota

/-!
# What an upload activates

The MAC is fed the bytes that are written, in the same turn, so at the end of the body the message
it authenticates is the image in flash.
-/

namespace Esp32Battery

open Lib

/-- What may go wrong. -/
structure Faults where
  read : Prop
  begin : Prop
  write : Prop
  timeout : Prop
  complete : Prop

/-- The rest of the body, and what was done to the flash: whether an update was begun, the bytes
written to it, and how often it was aborted or completed. `clock` is the first uptime read. -/
structure Upload where
  rest : List UInt8
  begun : Bool
  written : List UInt8
  aborts : ℕ
  completes : ℕ
  clock : Option Duration

def Upload.start (body : List UInt8) : Upload := ⟨body, false, [], 0, 0, none⟩

/-- The connection and the flash driver. -/
def driver (faults : Faults) : Env Upload OtaOp OtaOp.Reply where
  self _ _ := False
  answer s op r s' := match op, r with
    | .read n, r => Delivers faults.read n s.rest r s'.rest ∧ s' = { s with rest := s'.rest }
    | .new, r => s' = s ∧ (r = .error ⟨⟩ → faults.begin)
    | .initiateUpdate, r => match r with
      | .ok () => s' = { s with begun := true }
      | .error _ => s' = s ∧ faults.begin
    | .uptime, now => s' = { s with clock := s.clock.or (some now) } ∧
        (¬ faults.timeout → ∀ first ∈ s.clock, now.nanos < first.nanos + uploadTimeout.nanos)
    | .write bytes, r => s' = { s with written := s.written ++ bytes } ∧
        (r = .error ⟨⟩ → faults.write)
    | .abort, _ => s' = { s with aborts := s.aborts + 1 }
    | .complete, r => s' = { s with completes := s.completes + 1 } ∧
        (r = .error ⟨⟩ → faults.complete)

variable (hmac : List UInt8 → List UInt8 → List UInt8) (otaKey : List UInt8)

/-- The body's first 32 bytes authenticate the rest of it. -/
def Authentic (body : List UInt8) : Prop :=
  32 ≤ body.length ∧ body.take 32 = hmac otaKey (body.drop 32)

variable {faults : Faults} {body : List UInt8}

/-- Writes go to an update that is neither aborted nor completed, and one is completed only on an
authentic body, all of it written. -/
def SafeOta (body : List UInt8) (s : Upload) : OtaOp → Prop
  | .write _ => s.begun = true ∧ s.aborts = 0 ∧ s.completes = 0
  | .complete => Authentic hmac otaKey body ∧ s.written = body.drop 32
  | _ => True

/-- Nothing was done to the flash yet. -/
def Fresh (s : Upload) : Prop :=
  s.begun = false ∧ s.written = [] ∧ s.aborts = 0 ∧ s.completes = 0 ∧ s.clock = none

theorem driver_stable (P : Upload → Prop) : (driver faults).Stable P := fun _ _ h => h.elim

theorem readHmacTag_holds (filled : List UInt8) (hfilled : filled.length ≤ 32) :
    (driver faults).Holds (SafeOta hmac otaKey body) (fun s => filled ++ s.rest = body ∧ Fresh s)
      (readHmacTag filled) fun r s => Fresh s ∧ Outcome (fun _ => faults.read ∨ body.length < 32)
        (fun tag s => tag.length = 32 ∧ tag ++ s.rest = body) r s := by
  unfold readHmacTag
  split_ifs with hlt
  · refine .perform_bind (fun r s => Fresh s ∧ Outcome (fun _ => faults.read) (fun bytes s =>
        filled ++ bytes ++ s.rest = body ∧ bytes.length ≤ 32 - filled.length ∧
          (bytes = [] → s.rest = [])) r s) (driver_stable _) (fun s _ => trivial) ?_ ?_
    · rintro s r s' ⟨hbody, hs⟩ ⟨hd, hsame⟩
      rw [hsame]
      refine ⟨hs, ?_⟩
      rcases r with e | bytes
      · exact hd.error
      · obtain ⟨hrest, hle, hempty⟩ := hd.ok
        refine ⟨by rw [List.append_assoc, hrest, hbody], hle, fun h => ?_⟩
        rcases hempty h with h0 | h0
        · omega
        · exact h0
    · rintro (e | bytes)
      · exact .pure (driver_stable _) fun s h => ⟨h.1, .inl h.2⟩
      · simp only []
        split_ifs with hempty
        · refine .pure (driver_stable _) fun s h => ⟨h.1, .inr ?_⟩
          obtain ⟨hbody, -, hend⟩ := h.2
          rw [hend hempty, hempty, List.append_nil, List.append_nil] at hbody
          rw [← hbody]
          exact hlt
        · refine .assume (c := (filled ++ bytes).length ≤ 32) (fun s h => ?_) fun hle => ?_
          · have := h.2.2.1
            rw [List.length_append]
            omega
          have hpos := List.length_pos_of_ne_nil hempty
          exact (readHmacTag_holds (filled ++ bytes) hle).mono (fun s h => ⟨h.2.1, h.1⟩)
            fun _ _ h => h
  · exact .pure (driver_stable _) fun s h => ⟨h.2, by omega, h.1⟩
termination_by 32 - filled.length
decreasing_by
  rw [List.length_append]
  omega

def Begun (s : Upload) : Prop := s.begun = true ∧ s.aborts = 0 ∧ s.completes = 0

/-- An update under way: the tag was read, the clock started, and what was written is the message
of the MAC. `enough` says that the turns left outlast the body. -/
structure Writing (body tag : List UInt8) (first : Duration) (enough : Prop) (fuel : ℕ) (mac : Mac)
    (total : ℕ) (s : Upload) : Prop where
  begun : Begun s
  whole : tag ++ (s.written ++ s.rest) = body
  clock : s.clock = some first
  key : mac.key = otaKey
  message : mac.message = s.written
  count : total = s.written.length
  room : enough → s.rest.length < fuel

/-- What a turn's read leaves for the write. -/
def Fed (faults : Faults) (body tag : List UInt8) (first : Duration) (enough : Prop) (fuel : ℕ)
    (mac : Mac) (total : ℕ) : Except EspError (List UInt8) → Upload → Prop
  | .error _, s => Begun s ∧ faults.read
  | .ok [], s => Writing otaKey body tag first False 0 mac total s ∧ s.rest = []
  | .ok bytes, s => Begun s ∧ tag ++ (s.written ++ (bytes ++ s.rest)) = body ∧
    s.clock = some first ∧ mac.key = otaKey ∧ mac.message = s.written ∧ total = s.written.length ∧
    (enough → s.rest.length < fuel)

/-- How the loop may leave the update. -/
def Looped (faults : Faults) (body tag : List UInt8) (first : Duration) (enough : Prop) :
    Option (Mac × ℕ × Except String Unit) → Upload → Prop
  | none, _ => ¬ enough
  | some (_, _, .error _), s => Begun s ∧ (faults.read ∨ faults.write ∨ faults.timeout)
  | some (mac, total, .ok ()), s =>
    Writing otaKey body tag first False 0 mac total s ∧ s.rest = []

theorem uploadLoop_holds (tag : List UInt8) (first : Duration) (enough : Prop) (fuel : ℕ)
    (mac : Mac) (total : ℕ) :
    (driver faults).Holds (SafeOta hmac otaKey body)
      (Writing otaKey body tag first enough fuel mac total)
      (uploadLoop (first.nanos + uploadTimeout.nanos) fuel mac total)
      (Looped otaKey faults body tag first enough) := by
  induction fuel generalizing mac total with
  | zero =>
    refine .pure (driver_stable _) fun s h he => ?_
    have := h.room he
    omega
  | succ fuel ih =>
    unfold uploadLoop
    refine .perform_bind (fun now s =>
        Writing otaKey body tag first enough (fuel + 1) mac total s ∧
          (¬ faults.timeout → now.nanos < first.nanos + uploadTimeout.nanos))
      (driver_stable _) (fun s _ => trivial) ?_ fun now => ?_
    · rintro s now s' hw ⟨rfl, hclock⟩
      refine ⟨⟨hw.begun, hw.whole, ?_, hw.key, hw.message, hw.count, hw.room⟩,
        fun hn => hclock hn first hw.clock⟩
      rw [hw.clock]
      rfl
    split_ifs with hlate
    · refine .pure (driver_stable _) fun s ⟨hw, htime⟩ => ⟨hw.begun, .inr (.inr ?_)⟩
      by_contra hn
      exact absurd (htime hn) (by omega)
    refine .perform_bind (Fed otaKey faults body tag first enough fuel mac total)
      (driver_stable _) (fun s _ => trivial) ?_ ?_
    · rintro s r s' ⟨hw, -⟩ ⟨hd, hsame⟩
      rw [hsame]
      rcases r with e | bytes
      · exact ⟨hw.begun, hd.error⟩
      obtain ⟨hrest, -, hempty⟩ := hd.ok
      rcases bytes with _ | ⟨b, bytes⟩
      · have hend : s'.rest = [] := (hempty rfl).resolve_left (by omega)
        refine ⟨⟨hw.begun, ?_, hw.clock, hw.key, hw.message, hw.count, False.elim⟩, hend⟩
        rw [← hw.whole, ← hrest, List.nil_append]
      · refine ⟨hw.begun, by rw [hrest]; exact hw.whole, hw.clock, hw.key, hw.message, hw.count, ?_⟩
        intro he
        have hroom := hw.room he
        rw [← hrest, List.length_append, List.length_cons] at hroom
        show s'.rest.length < fuel
        omega
    · rintro (e | _ | ⟨b, bytes⟩)
      · exact .pure (driver_stable _) fun s h => ⟨h.1, .inl h.2⟩
      · exact .pure (driver_stable _) fun s h => h
      · -- the MAC has the bytes before the write, and keeps them if it fails
        refine .perform_bind (Outcome (fun s => Begun s ∧ faults.write) fun _ =>
            Writing otaKey body tag first enough fuel (mac.update (b :: bytes))
              (total + (b :: bytes).length))
          (driver_stable _) (fun s h => h.1) ?_ ?_
        · rintro s r s' ⟨hb, hwhole, hclock, hkey, hmessage, hcount, hroom⟩ ⟨rfl, hfault⟩
          rcases r with ⟨⟩ | ⟨⟩
          · exact ⟨hb, hfault rfl⟩
          · refine ⟨hb, ?_, hclock, hkey, ?_, ?_, hroom⟩
            · rw [List.append_assoc]
              exact hwhole
            · rw [Mac.update, hmessage]
            · rw [hcount, List.length_append]
        · rintro (e | ⟨⟩)
          · exact .pure (driver_stable _) fun s h => ⟨h.1, .inr (.inl h.2)⟩
          · exact ih _ _

/-- How the upload may leave the flash. -/
structure Uploaded (faults : Faults) (body : List UInt8) (r : Except String ℕ) (t : Upload) :
    Prop where
  closed : t.begun = true → t.completes = 1 ∧ t.aborts = 0 ∨ t.completes = 0 ∧ t.aborts = 1
  unbegun : t.begun = false → t.completes = 0 ∧ t.aborts = 0 ∧ t.written = []
  decided : ¬ faults.read → ¬ faults.write → ¬ faults.timeout →
    (t.completes = 1 ↔ t.begun = true ∧ Authentic hmac otaKey body)
  begins : ¬ faults.read → ¬ faults.begin → (t.begun = true ↔ 32 ≤ body.length)
  accepted : ∀ n, r = .ok n → t.completes = 1 ∧ n = (body.drop 32).length
  completed : ¬ faults.complete → t.completes = 1 → ∃ n, r = .ok n

variable {hmac otaKey}

theorem Uploaded.refused {s : Upload} (hs : Fresh s)
    (h : faults.read ∨ faults.begin ∨ body.length < 32) (msg : String) :
    Uploaded hmac otaKey faults body (.error msg) s := by
  obtain ⟨hbegun, hwritten, haborts, hcompletes, -⟩ := hs
  refine ⟨?_, fun _ => ⟨hcompletes, haborts, hwritten⟩, fun _ _ _ => ?_,
    fun hread hbegin => ?_, ?_, ?_⟩
  · rw [hbegun]
    exact fun h => by cases h
  · rw [hbegun, hcompletes]
    simp
  · rw [hbegun]
    rcases h with h | h | h
    · exact absurd h hread
    · exact absurd h hbegin
    · simp
      omega
  · exact fun n h => by cases h
  · rw [hcompletes]
    exact fun _ h => by cases h

/-- An update aborted once, on a body that is not authentic where nothing went wrong. -/
theorem Uploaded.aborted {s : Upload} (hs : Begun s) (hlen : 32 ≤ body.length)
    (h : (faults.read ∨ faults.write ∨ faults.timeout) ∨ ¬ Authentic hmac otaKey body)
    (msg : String) :
    Uploaded hmac otaKey faults body (.error msg) { s with aborts := s.aborts + 1 } := by
  obtain ⟨hbegun, haborts, hcompletes⟩ := hs
  refine ⟨fun _ => .inr ⟨hcompletes, by simp only [haborts]⟩, ?_, fun hr hw ht => ?_, fun _ _ => ?_,
    ?_, ?_⟩
  · simp only [hbegun]
    exact fun h => by cases h
  · simp only [hcompletes, hbegun]
    rcases h with (h | h | h) | h
    · exact absurd h hr
    · exact absurd h hw
    · exact absurd h ht
    · simp [h]
  · exact iff_of_true hbegun hlen
  · exact fun n h => by cases h
  · simp only [hcompletes]
    exact fun _ h => by cases h

theorem authentic_append {tag message : List UInt8} (htag : tag.length = 32) :
    Authentic hmac otaKey (tag ++ message) ↔ hmac otaKey message = tag := by
  unfold Authentic
  rw [List.take_left' htag, List.drop_left' htag, List.length_append]
  exact ⟨fun h => h.2.symm, fun h => ⟨by omega, h.symm⟩⟩

variable (hmac otaKey)

theorem handleUpload_holds (fuel : ℕ) : (driver faults).Holds (SafeOta hmac otaKey body)
    (fun s => s.rest = body ∧ Fresh s) (handleUpload hmac otaKey fuel) fun r t =>
      r.elim (¬ body.length < fuel) fun r => Uploaded hmac otaKey faults body r t := by
  unfold handleUpload
  refine .bind (readHmacTag_holds hmac otaKey [] (Nat.zero_le _)) ?_
  rintro (msg | tag)
  · refine .pure (driver_stable _) fun s h => .refused h.1 ?_ msg
    rcases h.2 with h | h
    · exact .inl h
    · exact .inr (.inr h)
  refine .assume (c := tag.length = 32 ∧ 32 ≤ body.length) (fun s h => ⟨h.2.1, ?_⟩) ?_
  · have := congrArg List.length h.2.2
    rw [List.length_append, h.2.1] at this
    omega
  rintro ⟨htag, hlen⟩
  refine .perform_bind (fun r s => Fresh s ∧ tag ++ s.rest = body ∧ (r = .error ⟨⟩ → faults.begin))
    (driver_stable _) (fun s _ => trivial) ?_ ?_
  · rintro s r s' ⟨hs, -, hbody⟩ ⟨rfl, hfault⟩
    exact ⟨hs, hbody, hfault⟩
  rintro (⟨⟩ | ⟨⟩)
  · exact .pure (driver_stable _) fun s h => .refused h.1 (.inr (.inl (h.2.2 rfl))) _
  refine .perform_bind (Outcome (fun s => Fresh s ∧ faults.begin) fun _ s =>
      Begun s ∧ s.written = [] ∧ s.clock = none ∧ tag ++ s.rest = body)
    (driver_stable _) (fun s _ => trivial) ?_ ?_
  · rintro s (⟨⟩ | ⟨⟩) s' ⟨hs, hbody, -⟩ ha
    · obtain ⟨rfl, hfault⟩ := ha
      exact ⟨hs, hfault⟩
    · rw [show s' = { s with begun := true } from ha]
      exact ⟨⟨rfl, hs.2.2.1, hs.2.2.2.1⟩, hs.2.1, hs.2.2.2.2, hbody⟩
  rintro (⟨⟩ | ⟨⟩)
  · exact .pure (driver_stable _) fun s h => .refused h.1 (.inr (.inl h.2)) _
  refine .perform_bind
    (fun first => Writing otaKey body tag first (body.length < fuel) fuel ⟨otaKey, []⟩ 0)
    (driver_stable _) (fun s _ => trivial) ?_ fun first => ?_
  · rintro s now s' ⟨hb, hwritten, hclock, hbody⟩ ⟨rfl, -⟩
    refine ⟨hb, ?_, ?_, rfl, hwritten.symm, ?_, fun henough => ?_⟩
    · rw [hwritten, List.nil_append, hbody]
    · rw [hclock]
      rfl
    · rw [hwritten]
      rfl
    · have := congrArg List.length hbody
      rw [List.length_append] at this
      show s.rest.length < fuel
      omega
  refine .bind (uploadLoop_holds hmac otaKey tag first _ fuel _ _) ?_
  rintro (_ | ⟨mac, total, msg | ⟨⟩⟩)
  · exact .pure (driver_stable _) fun s h => h
  · refine .perform_bind (fun _ s => Uploaded hmac otaKey faults body (.error msg) s)
      (driver_stable _) (fun s _ => trivial) ?_ fun _ => .pure (driver_stable _) fun s h => h
    rintro s r s' ⟨hs, hfault⟩ ha
    rw [show s' = { s with aborts := s.aborts + 1 } from ha]
    exact .aborted hs hlen (.inl hfault) msg
  refine .assume (c := body = tag ++ mac.message ∧ mac.key = otaKey ∧ total = mac.message.length)
    (fun s ⟨hw, hrest⟩ => ⟨?_, hw.key, ?_⟩) ?_
  · rw [← hw.whole, hrest, List.append_nil, hw.message]
  · rw [hw.message]
    exact hw.count
  rintro ⟨hbody, hkey, htotal⟩
  have hauthentic : Authentic hmac otaKey body ↔ mac.verifySlice hmac tag = true := by
    rw [hbody, authentic_append htag, Mac.verifySlice, hkey, decide_eq_true_iff]
  have hdrop : body.drop 32 = mac.message := by
    rw [hbody, List.drop_left' htag]
  simp only []
  split_ifs with hverify
  · refine .perform_bind (fun _ s => Uploaded hmac otaKey faults body _ s)
      (driver_stable _) (fun s _ => trivial) ?_ fun _ => .pure (driver_stable _) fun s h => h
    rintro s r s' ⟨hw, -⟩ ha
    rw [show s' = { s with aborts := s.aborts + 1 } from ha]
    refine .aborted hw.begun hlen (.inr fun h => ?_) _
    rw [hauthentic.1 h] at hverify
    cases hverify
  have hyes : Authentic hmac otaKey body := hauthentic.2 (by simpa using hverify)
  refine .perform_bind (Outcome
      (Uploaded hmac otaKey faults body (.error "firmware validation failed")) fun _ =>
      Uploaded hmac otaKey faults body (.ok total)) (driver_stable _) ?_ ?_ ?_
  · rintro s ⟨hw, -⟩
    exact ⟨hyes, by rw [hdrop, hw.message]⟩
  · rintro s r s' ⟨hw, -⟩ ⟨rfl, hfault⟩
    obtain ⟨hbegun, haborts, hcompletes⟩ := hw.begun
    have hone : s.completes + 1 = 1 := by rw [hcompletes]
    have hnot : s.begun = false → s.completes + 1 = 0 ∧ s.aborts = 0 ∧ s.written = [] := by
      rw [hbegun]
      exact fun h => by cases h
    rcases r with ⟨⟩ | ⟨⟩
    · exact ⟨fun _ => .inl ⟨hone, haborts⟩, hnot, fun _ _ _ => iff_of_true hone ⟨hbegun, hyes⟩,
        fun _ _ => iff_of_true hbegun hlen, fun n h => (by cases h),
        fun hn => absurd (hfault rfl) hn⟩
    · refine ⟨fun _ => .inl ⟨hone, haborts⟩, hnot, fun _ _ _ => iff_of_true hone ⟨hbegun, hyes⟩,
        fun _ _ => iff_of_true hbegun hlen, fun n h => ?_, fun _ _ => ⟨total, rfl⟩⟩
      cases h
      exact ⟨hone, by rw [hdrop, htotal]⟩
  · rintro (⟨⟩ | ⟨⟩) <;> exact .pure (driver_stable _) fun s h => h

/-- Whatever pieces the body comes in and whatever fails: an update is completed only on an
authentic body, all of it and nothing else written; one begun and not completed is aborted once,
and nothing is written after; and where neither a read nor a write fails nor the time runs out, the
body alone decides. -/
theorem upload_authentic (fuel : ℕ) {tr : List (Upload × OtaOp)}
    {o : Option (Option (Except String ℕ))} {t : Upload}
    (h : (driver faults).Run (handleUpload hmac otaKey fuel) (.start body) tr o t) :
    (∀ e ∈ tr, e.2 = .complete → Authentic hmac otaKey body ∧ e.1.written = body.drop 32) ∧
    (∀ e ∈ tr, ∀ bytes, e.2 = .write bytes →
      e.1.begun = true ∧ e.1.aborts = 0 ∧ e.1.completes = 0) ∧
    (∀ r, o = some (some r) →
      (t.begun = true → t.completes = 1 ∧ t.aborts = 0 ∨ t.completes = 0 ∧ t.aborts = 1) ∧
      (t.begun = false → t.completes = 0 ∧ t.aborts = 0 ∧ t.written = []) ∧
      (¬ faults.read → ¬ faults.write → ¬ faults.timeout →
        (t.completes = 1 ↔ t.begun = true ∧ Authentic hmac otaKey body) ∧
        (¬ faults.begin → (t.begun = true ↔ 32 ≤ body.length))) ∧
      (∀ n, r = .ok n → t.completes = 1 ∧ n = (body.drop 32).length) ∧
      (¬ faults.complete → t.completes = 1 → ∃ n, r = .ok n)) ∧
    (body.length < fuel → o ≠ some none) := by
  obtain ⟨hsafe, hpost⟩ := handleUpload_holds hmac otaKey fuel _ _ _ _
    ⟨rfl, rfl, rfl, rfl, rfl, rfl⟩ h
  refine ⟨fun e he hop => ?_, fun e he bytes hop => ?_, fun r hr => ?_, fun henough ho => ?_⟩
  · have := hsafe e he
    rwa [hop] at this
  · have := hsafe e he
    rwa [hop] at this
  · have hu := hpost (some r) hr
    exact ⟨hu.closed, hu.unbegun,
      fun hread hwrite htimeout => ⟨hu.decided hread hwrite htimeout, hu.begins hread⟩,
      hu.accepted, hu.completed⟩
  · exact hpost none ho henough

/-- A connection that delivers twenty bytes at a time to a driver that never fails. -/
def twenties (s : Upload) : (op : OtaOp) → op.Reply × Upload
  | .read n => (.ok (s.rest.take (min n 20)), { s with rest := s.rest.drop (min n 20) })
  | .new => (.ok (), s)
  | .initiateUpdate => (.ok (), { s with begun := true })
  | .uptime => (.zero, { s with clock := s.clock.or (some .zero) })
  | .write bytes => (.ok (), { s with written := s.written ++ bytes })
  | .abort => (.ok (), { s with aborts := s.aborts + 1 })
  | .complete => (.ok (), { s with completes := s.completes + 1 })

def noFaults : Faults := ⟨False, False, False, False, False⟩

theorem twenties_answer (s : Upload) (op : OtaOp) :
    (driver noFaults).answer s op (twenties s op).1 (twenties s op).2 := by
  cases op with
  | read n => exact ⟨.take _ n (by omega) s.rest, rfl⟩
  | uptime =>
    refine ⟨rfl, fun _ first _ => ?_⟩
    show 0 < first.nanos + uploadTimeout.nanos
    have : 0 < uploadTimeout.nanos := by decide
    omega
  | new | write | complete => exact ⟨rfl, fun h => by cases h⟩
  | initiateUpdate | abort => rfl

/-- HMAC-SHA256 of the bytes 1, 2, 3 under a key of 32 zeros. -/
def sampleTag : List UInt8 :=
  [0xc2, 0x5c, 0xf6, 0x4d, 0xb0, 0xf3, 0x33, 0x9e, 0x7e, 0x80, 0xfb, 0xd6, 0xe0, 0xbe, 0x87,
    0x99, 0x56, 0xa6, 0xa3, 0xd7, 0xe4, 0x98, 0x7a, 0x2a, 0x4d, 0x01, 0xfb, 0x90, 0xf2, 0x7b,
    0x56, 0x39]

def sampleHmac (key message : List UInt8) : List UInt8 :=
  if key = List.replicate 32 0 ∧ message = [1, 2, 3] then sampleTag else []

/-- A three-byte image under its tag, which comes in two reads. -/
theorem upload_authentic_split : ∃ tr r t, (driver noFaults).Run
      (handleUpload sampleHmac (List.replicate 32 0) 36) (.start (sampleTag ++ [1, 2, 3])) tr
      (some (some r)) t ∧ t.completes = 1 := by
  have hrun := Env.exec_run twenties_answer
    (handleUpload sampleHmac (List.replicate 32 0) 36) (.start (sampleTag ++ [1, 2, 3]))
  obtain ⟨-, -, hdone, hreturns⟩ := upload_authentic sampleHmac (List.replicate 32 0) 36 hrun
  obtain ⟨r, hr⟩ := Option.ne_none_iff_exists'.1 fun hnone =>
    hreturns (by decide) (congrArg some hnone)
  rw [hr] at hrun hdone
  obtain ⟨-, -, hdecided, -, -⟩ := hdone r rfl
  obtain ⟨hiff, hbegun⟩ := hdecided id id id
  exact ⟨_, r, _, hrun, hiff.2 ⟨(hbegun id).2 (by decide), by unfold Authentic; decide +kernel⟩⟩

end Esp32Battery
