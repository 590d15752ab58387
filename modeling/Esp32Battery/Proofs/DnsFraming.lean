import Esp32Battery.Dns.Message
import Esp32Battery.Dns.Packet

/-!
# The responder's framing

The label walk stops where a plainly read name ends, and only there; what is written decodes to
the answer.
-/

namespace Esp32Battery

open Lib Dns

namespace DnsPacket

variable {req : List UInt8} {q : ℕ}

theorem walkLabels_end (h : req[q]? = none) : walkLabels req q = .ok (some q) := by
  unfold walkLabels
  rw [dif_neg (by rw [List.getElem?_eq_none_iff] at h; omega)]
  rfl

theorem walkLabels_zero (h : req[q]? = some 0) : walkLabels req q = .ok (some q) := by
  obtain ⟨hlt, -⟩ := List.getElem?_eq_some_iff.1 h
  unfold walkLabels index
  rw [dif_pos hlt, h, expect_some, ok_bind, if_neg (by simp)]
  rfl

theorem walkLabels_label {len : UInt8} (h : req[q]? = some len) (hlen : len ≠ 0) :
    walkLabels req q = if req.length ≤ q + (len.toNat + 1) then .ok none
      else walkLabels req (q + (len.toNat + 1)) := by
  obtain ⟨hlt, -⟩ := List.getElem?_eq_some_iff.1 h
  rw [walkLabels]
  unfold index
  rw [dif_pos hlt, h, expect_some, ok_bind, if_pos hlen]
  rfl

/-- A name ends in a zero. -/
theorem exists_of_isName {name : List UInt8} (h : IsName name) :
    ∃ labels, name = labels ++ [0] := by
  induction h with
  | root => exact ⟨[], rfl⟩
  | label len label rest _ _ _ ih =>
    obtain ⟨labels, rfl⟩ := ih
    exact ⟨len :: (label ++ labels), by simp⟩

theorem length_pos_of_isName {name : List UInt8} (h : IsName name) : 0 < name.length := by
  obtain ⟨labels, rfl⟩ := exists_of_isName h
  rw [List.length_append, List.length_singleton]
  omega

theorem walkLabels_name {name : List UInt8} (h : IsName name) (before after : List UInt8) :
    walkLabels (before ++ (name ++ after)) before.length =
      .ok (some (before.length + name.length - 1)) := by
  induction h generalizing before with
  | root => exact walkLabels_zero (by simp)
  | label len label rest hlen hlabel hrest ih =>
    have hsplit : before ++ (len :: (label ++ rest) ++ after) =
        before ++ len :: label ++ (rest ++ after) := by simp
    have hnext : (before ++ len :: label).length = before.length + (len.toNat + 1) := by
      simp [hlabel]
    have hpos := length_pos_of_isName hrest
    have hwalk := ih (before ++ len :: label)
    rw [hnext] at hwalk
    have hget : (before ++ (len :: (label ++ rest) ++ after))[before.length]? = some len := by simp
    rw [walkLabels_label hget hlen, hsplit, hwalk, if_neg]
    · simp only [List.length_cons, List.length_append, ← hlabel]
      congr 2
      omega
    · rw [List.length_append, hnext, List.length_append]
      omega

/-- The walk never leaves the packet, and a zero it stops at ends a name. -/
theorem walkLabels_ok (req : List UInt8) (q : ℕ) : ∃ o, walkLabels req q = .ok o ∧
    ∀ qEnd, o = some qEnd → req[qEnd]? = some 0 →
      ∃ name after, IsName name ∧ req.drop q = name ++ after ∧ qEnd + 1 = q + name.length := by
  rcases h : req[q]? with _ | len
  · refine ⟨_, walkLabels_end h, fun qEnd hq h0 => ?_⟩
    cases hq
    rw [h] at h0
    cases h0
  obtain ⟨hlt, hget⟩ := List.getElem?_eq_some_iff.1 h
  have hdrop : req.drop q = len :: req.drop (q + 1) := by
    rw [List.drop_eq_getElem_cons hlt, hget]
  by_cases hlen : len = 0
  · subst hlen
    refine ⟨_, walkLabels_zero h, fun qEnd hq _ => ?_⟩
    cases hq
    exact ⟨[0], req.drop (q + 1), .root, hdrop, rfl⟩
  rw [walkLabels_label h hlen]
  by_cases hover : req.length ≤ q + (len.toNat + 1)
  · rw [if_pos hover]
    exact ⟨none, rfl, fun qEnd hq => by cases hq⟩
  · rw [if_neg hover]
    obtain ⟨o, hwalk, ho⟩ := walkLabels_ok req (q + (len.toNat + 1))
    refine ⟨o, hwalk, fun qEnd hq h0 => ?_⟩
    obtain ⟨name, after, hname, hafter, hend⟩ := ho qEnd hq h0
    have hlabel : ((req.drop (q + 1)).take len.toNat).length = len.toNat := by
      rw [List.length_take, List.length_drop]
      omega
    refine ⟨len :: ((req.drop (q + 1)).take len.toNat ++ name), after,
      .label len _ name hlen hlabel hname, ?_, ?_⟩
    · have hrest : req.drop (q + (len.toNat + 1)) = (req.drop (q + 1)).drop len.toNat := by
        rw [List.drop_drop]
        congr 1
        omega
      rw [hdrop, List.cons_append, List.append_assoc, ← hafter, hrest, List.take_append_drop]
    · rw [List.length_cons, List.length_append, hlabel, hend]
      omega
termination_by req.length - q

/-- A request read as a header, a question and whatever follows it. -/
structure Framed (req header name typeClass extra : List UInt8) : Prop where
  eq : req = header ++ (name ++ (typeClass ++ extra))
  header : header.length = 12
  name : IsName name
  typeClass : typeClass.length = 4

variable {header name typeClass extra : List UInt8}

theorem Framed.length_eq (h : Framed req header name typeClass extra) :
    req.length = 12 + name.length + 4 + extra.length := by
  rw [h.eq]
  simp only [List.length_append, h.header, h.typeClass]
  omega

theorem parseQuestionEnd_framed (h : Framed req header name typeClass extra) :
    parseQuestionEnd req = .ok (some (12 + name.length + 4)) := by
  have hlen := h.length_eq
  have hpos := length_pos_of_isName h.name
  have hwalk := walkLabels_name h.name header (typeClass ++ extra)
  rw [← h.eq, h.header] at hwalk
  have hlast : req[12 + name.length - 1]? = some 0 := by
    obtain ⟨labels, rfl⟩ := exists_of_isName h.name
    have hsplit : req = header ++ labels ++ 0 :: (typeClass ++ extra) := by
      rw [h.eq]
      simp
    rw [hsplit, List.getElem?_append_right (by simp [h.header])]
    simp [h.header]
  unfold parseQuestionEnd
  rw [if_neg (by omega), hwalk, ok_bind]
  simp only []
  rw [if_neg (by omega)]
  unfold index
  rw [hlast, expect_some, ok_bind, if_neg (by simp), if_neg (by omega)]
  congr 2
  omega

theorem parseQuestionEnd_ok (req : List UInt8) : ∃ o, parseQuestionEnd req = .ok o ∧
    ∀ qEnd, o = some qEnd → ∃ header name typeClass extra,
      Framed req header name typeClass extra ∧ qEnd = 12 + name.length + 4 := by
  have hnone : ∃ o, (.ok none : Except Panic (Option ℕ)) = .ok o ∧
      ∀ qEnd, o = some qEnd → ∃ header name typeClass extra,
        Framed req header name typeClass extra ∧ qEnd = 12 + name.length + 4 :=
    ⟨none, rfl, fun _ h => by cases h⟩
  obtain ⟨o, hwalk, ho⟩ := walkLabels_ok req 12
  unfold parseQuestionEnd
  by_cases hshort : req.length < 12
  · rw [if_pos hshort]
    exact hnone
  rw [if_neg hshort, hwalk, ok_bind]
  rcases o with _ | qEnd
  · exact hnone
  simp only []
  by_cases hend : req.length ≤ qEnd
  · rw [if_pos hend]
    exact hnone
  rw [if_neg hend, index_of_lt (by omega), ok_bind]
  by_cases hzero : req[qEnd] = 0
  · rw [if_neg (by simp [hzero])]
    by_cases htail : req.length < qEnd + 1 + 4
    · rw [if_pos htail]
      exact hnone
    rw [if_neg htail]
    refine ⟨_, rfl, fun q hq => ?_⟩
    cases hq
    obtain ⟨name, after, hname, hdrop, hq⟩ := ho qEnd rfl
      (List.getElem?_eq_some_iff.2 ⟨by omega, hzero⟩)
    have hlen := congrArg List.length hdrop
    rw [List.length_drop, List.length_append] at hlen
    refine ⟨req.take 12, name, after.take 4, after.drop 4, ⟨?_, ?_, hname, ?_⟩, by omega⟩
    · rw [List.take_append_drop, ← hdrop, List.take_append_drop]
    · rw [List.length_take]
      omega
    · rw [List.length_take]
      omega
  · rw [if_pos hzero]
    exact hnone

/-- The question asks for an address. -/
def AsksA (typeClass : List UInt8) : Prop := typeClass.take 2 = [0, 1]

instance : DecidablePred AsksA := fun _ => inferInstanceAs (Decidable (_ = _))

def responseLength (name typeClass : List UInt8) : ℕ :=
  12 + (name ++ typeClass).length + if AsksA typeClass then 16 else 0

/-- The one answer, its name pointing back to the question's. -/
def answer (answerIp : Vector UInt8 4) : List UInt8 :=
  [0xC0, 0x0C, 0, 1, 0, 1, 0, 0, 0, 0, 0, 4] ++ answerIp.toList

/-- The bytes of the response, `rd` being the third byte of the request. -/
def response (id : List UInt8) (rd : UInt8) (name typeClass : List UInt8)
    (answerIp : Vector UInt8 4) : List UInt8 :=
  id ++ [0x84 ||| (rd &&& 0x01)] ++ [0x00] ++
    [0, 1, 0, if AsksA typeClass then 1 else 0, 0, 0, 0, 0] ++ (name ++ typeClass) ++
    if AsksA typeClass then answer answerIp else []

theorem fromBeBytes_eq_one {hi lo : UInt8} : fromBeBytes hi lo = 1 ↔ hi = 0 ∧ lo = 1 := by
  unfold fromBeBytes
  rw [← UInt8.toNat_inj, ← UInt8.toNat_inj]
  have := lo.toNat_lt
  simp only [UInt8.toNat_zero, UInt8.toNat_one]
  omega

theorem index_of_getElem? {s : List UInt8} {i : ℕ} {b : UInt8} (h : s[i]? = some b) :
    index s i = .ok b := by
  unfold index
  rw [h, expect_some]

theorem Framed.slice_question (h : Framed req header name typeClass extra) :
    slice req 12 (12 + name.length + 4) = .ok (name ++ typeClass) := by
  have hlen := h.length_eq
  have hsplit : req = header ++ (name ++ typeClass) ++ extra := by
    rw [h.eq]
    simp only [List.append_assoc]
  have htake : req.take (12 + name.length + 4) = header ++ (name ++ typeClass) := by
    rw [hsplit, List.take_left']
    simp only [List.length_append, h.header, h.typeClass]
    omega
  rw [slice_of_le (by omega) (by omega), htake, List.drop_left' h.header]

theorem Framed.index_type (h : Framed req header name typeClass extra) {i : ℕ} {b : UInt8}
    (hb : typeClass[i]? = some b) : index req (12 + name.length + i) = .ok b := by
  obtain ⟨hi, -⟩ := List.getElem?_eq_some_iff.1 hb
  refine index_of_getElem? ?_
  rw [h.eq, List.getElem?_append_right (by rw [h.header]; omega), h.header,
    List.getElem?_append_right (by omega), List.getElem?_append_left (by omega),
    show 12 + name.length + i - 12 - name.length = i by omega, hb]

theorem buildResponse_framed (h : Framed req header name typeClass extra)
    (answerIp : Vector UInt8 4) (out : List UInt8) :
    if responseLength name typeClass ≤ out.length then
      ∃ out', buildResponse req answerIp out =
          .ok (some (responseLength name typeClass), out') ∧
        Filled out (response (req.take 2) (header.getD 2 0) name typeClass answerIp) out'
    else buildResponse req answerIp out = .ok (none, out) := by
  obtain ⟨h0, h1, h2, tail, rfl⟩ : ∃ a b c t, header = a :: b :: c :: t := by
    have hlen := h.header
    rcases header with _ | ⟨a, _ | ⟨b, _ | ⟨c, t⟩⟩⟩ <;> simp at hlen
    exact ⟨a, b, c, t, rfl⟩
  obtain ⟨t0, t1, cls, rfl⟩ : ∃ a b t, typeClass = a :: b :: t := by
    have hlen := h.typeClass
    rcases typeClass with _ | ⟨a, _ | ⟨b, t⟩⟩ <;> simp at hlen
    exact ⟨a, b, t, rfl⟩
  have htype := h.typeClass
  have hA : fromBeBytes t0 t1 = 1 ↔ AsksA (t0 :: t1 :: cls) := by
    rw [fromBeBytes_eq_one]
    simp [AsksA]
  have h0' : index req 0 = .ok h0 := index_of_getElem? (by rw [h.eq]; rfl)
  have h1' : index req 1 = .ok h1 := index_of_getElem? (by rw [h.eq]; rfl)
  have h2' : index req 2 = .ok h2 := index_of_getElem? (by rw [h.eq]; rfl)
  have hid : req.take 2 = [h0, h1] := by
    rw [h.eq]
    rfl
  have htotal : 12 + (12 + name.length + 4 - 12) + (if fromBeBytes t0 t1 = 1 then 16 else 0) =
      responseLength name (t0 :: t1 :: cls) := by
    unfold responseLength
    rw [List.length_append, htype]
    simp only [hA]
    omega
  unfold buildResponse
  rw [parseQuestionEnd_framed h, ok_bind]
  simp only []
  rw [show 12 + name.length + 4 - 4 = 12 + name.length + 0 by omega,
    show 12 + name.length + 4 - 3 = 12 + name.length + 1 by omega,
    h.index_type (b := t0) rfl, h.index_type (b := t1) rfl, ok_bind, ok_bind, htotal]
  by_cases hfits : responseLength name (t0 :: t1 :: cls) ≤ out.length
  · have hroom : 12 + name.length + 4 ≤ out.length := by
      unfold responseLength at hfits
      rw [List.length_append, htype] at hfits
      omega
    obtain ⟨counts, hcounts, hcl⟩ : ∃ counts : List UInt8,
        (if fromBeBytes t0 t1 = 1 then [0, 1, 0, 1, 0, 0, 0, 0] else [0, 1, 0, 0, 0, 0, 0, 0]) =
          counts ∧ counts.length = 8 := ⟨_, rfl, by split_ifs <;> rfl⟩
    have hcounts' : [0, 1, 0, if AsksA (t0 :: t1 :: cls) then 1 else 0, 0, 0, 0, 0] = counts := by
      rw [← hcounts]
      simp only [hA]
      split_ifs <;> rfl
    obtain ⟨o₀, e₀, f₀⟩ := (Filled.start out).store (i := 0) h0 rfl (by omega)
    obtain ⟨o₁, e₁, f₁⟩ := f₀.store (i := 1) h1 rfl (by omega)
    obtain ⟨o₂, e₂, f₂⟩ := f₁.store (i := 2) (0x84 ||| (h2 &&& 0x01)) rfl (by omega)
    obtain ⟨o₃, e₃, f₃⟩ := f₂.store (i := 3) 0x00 rfl (by omega)
    obtain ⟨o₄, e₄, f₄⟩ := f₃.copyInto (i := 4) (j := 12) counts rfl (by rw [hcl]) (by omega)
    obtain ⟨o₅, e₅, f₅⟩ := f₄.copyInto (i := 12) (j := 12 + name.length + 4)
      (name ++ t0 :: t1 :: cls) (by rw [List.length_append, hcl]; rfl)
      (by rw [List.length_append, htype]; omega) hroom
    rw [if_pos hfits, if_neg (by omega), h0', ok_bind, e₀, ok_bind, h1', ok_bind, e₁, ok_bind, h2',
      ok_bind, e₂, ok_bind, e₃, ok_bind, hcounts, e₄, ok_bind, h.slice_question, ok_bind, e₅,
      ok_bind]
    by_cases ha : AsksA (t0 :: t1 :: cls)
    · have hroom' : 12 + name.length + 4 + 16 ≤ out.length := by
        unfold responseLength at hfits
        rw [List.length_append, htype, if_pos ha] at hfits
        omega
      obtain ⟨o₆, e₆, f₆⟩ := f₅.copyInto (i := 12 + name.length + 4)
        (j := 12 + name.length + 4 + 12) [0xC0, 0x0C, 0, 1, 0, 1, 0, 0, 0, 0, 0, 4]
        (by
          simp only [List.length_append, hcl, htype, List.length_nil, List.length_singleton]
          omega) rfl (by omega)
      obtain ⟨o₇, e₇, f₇⟩ := f₆.copyInto (i := 12 + name.length + 4 + 12)
        (j := 12 + name.length + 4 + 16) answerIp.toList
        (by
          simp only [List.length_append, hcl, htype, List.length_nil, List.length_cons]
          omega) (by rw [Vector.length_toList]) hroom'
      rw [if_pos (hA.2 ha), e₆, ok_bind, e₇, ok_bind]
      refine ⟨o₇, rfl, ?_⟩
      unfold response answer
      rw [hcounts', if_pos ha, hid]
      simp only [List.append_assoc] at f₇ ⊢
      exact f₇
    · rw [if_neg (fun h => ha (hA.1 h))]
      refine ⟨o₅, rfl, ?_⟩
      unfold response
      rw [hcounts', if_neg ha, hid]
      simp only [List.append_assoc, List.append_nil] at f₅ ⊢
      exact f₅
  · rw [if_neg hfits, if_pos (by omega)]
    rfl

open Decoder

def answerRecord (answerIp : Vector UInt8 4) : Record where
  name := .pointer 12
  type := 1
  cls := 1
  ttl := 0
  data := answerIp.toList

theorem reads_answer (fuel : ℕ) (answerIp : Vector UInt8 4) :
    Reads (record fuel) (answer answerIp) (answerRecord answerIp) := by
  have hdata := reads_bytes answerIp.toList
  rw [Vector.length_toList] at hdata
  have hname : Reads (recordName fuel) [0xC0, 0x0C] (.pointer 12) := fun _ => rfl
  have httl : Reads u32 [0, 0, 0, 0] 0 := fun _ => rfl
  exact hname.bind ((reads_u16 0 1).bind ((reads_u16 0 1).bind
    (httl.bind ((reads_u16 0 4).bind (hdata.ret _)))))

/-- What a client is to read. -/
def replyMessage (id : List UInt8) (rd : Bool) (name typeClass : List UInt8)
    (answerIp : Vector UInt8 4) : Message where
  id := id
  flags := {
    qr := true
    opcode := 0
    aa := true
    tc := false
    rd
    ra := false
    z := 0
    rcode := 0 }
  questions := [name ++ typeClass]
  answers := if AsksA typeClass then [answerRecord answerIp] else []
  authorities := []
  additionals := []

theorem reads_response_flags (rd : UInt8) : Reads flags [0x84 ||| (rd &&& 0x01), 0x00] {
    qr := true
    opcode := 0
    aa := true
    tc := false
    rd := rd.toNat.testBit 0
    ra := false
    z := 0
    rcode := 0 } := by
  have hbit : rd &&& 0x01 = if rd.toNat.testBit 0 then 1 else 0 := by
    rw [← UInt8.toNat_inj, UInt8.toNat_and]
    simp only [Nat.testBit_zero, UInt8.reduceToNat, Nat.and_one_is_mod]
    split_ifs with h <;> simp at h <;> simp [h]
  rw [hbit]
  cases rd.toNat.testBit 0
  · exact reads_flags (0x84 ||| 0) 0x00
  · exact reads_flags (0x84 ||| 1) 0x00

theorem reads_response {id : List UInt8} (hid : id.length = 2) (rd : UInt8)
    (hname : IsName name) (htype : typeClass.length = 4) (answerIp : Vector UInt8 4) {fuel : ℕ}
    (hf : name.length ≤ fuel) :
    Reads (message fuel) (response id rd name typeClass answerIp)
      (replyMessage id (rd.toNat.testBit 0) name typeClass answerIp) := by
  have hids := reads_bytes id
  rw [hid] at hids
  have hquestion := reads_many_one (reads_question hname htype hf)
  have hnone := reads_many_zero (record fuel)
  have hbytes : response id rd name typeClass answerIp = id ++ ([0x84 ||| (rd &&& 0x01), 0x00] ++
      ([0, 1] ++ ([0, if AsksA typeClass then 1 else 0] ++ ([0, 0] ++ ([0, 0] ++
      ((name ++ typeClass) ++ ((if AsksA typeClass then answer answerIp else []) ++
      ([] ++ [])))))))) := by
    simp [response]
  rw [hbytes]
  refine hids.bind ((reads_response_flags rd).bind ((reads_u16 0 1).bind ((reads_u16 0 _).bind
    ((reads_u16 0 0).bind ((reads_u16 0 0).bind (hquestion.bind ?_))))))
  unfold replyMessage
  split_ifs
  · exact (reads_many_one (reads_answer fuel answerIp)).bind (hnone.bind (hnone.ret _))
  · exact hnone.bind (hnone.bind (hnone.ret _))

theorem length_response {id : List UInt8} (hid : id.length = 2) (rd : UInt8)
    (name typeClass : List UInt8) (answerIp : Vector UInt8 4) :
    (response id rd name typeClass answerIp).length = responseLength name typeClass := by
  unfold response responseLength answer
  split_ifs
  · simp only [List.length_append, List.length_cons, List.length_nil, hid, Vector.length_toList]
  · simp only [List.length_append, List.length_cons, List.length_nil, hid]

theorem decode_response {id : List UInt8} (hid : id.length = 2) (rd : UInt8)
    (hname : IsName name) (htype : typeClass.length = 4) (answerIp : Vector UInt8 4) :
    decode (response id rd name typeClass answerIp) =
      some (replyMessage id (rd.toNat.testBit 0) name typeClass answerIp) := by
  have hfuel : name.length ≤ (response id rd name typeClass answerIp).length := by
    rw [length_response hid, responseLength, List.length_append]
    omega
  unfold decode
  rw [(reads_response hid rd hname htype answerIp hfuel).eq]

theorem Framed.flags (h : Framed req header name typeClass extra) : ∃ f rest,
    Dns.flags (req.drop 2) = some (f, rest) ∧ f.rd = (header.getD 2 0).toNat.testBit 0 := by
  obtain ⟨h0, h1, h2, h3, tail, rfl⟩ : ∃ a b c d t, header = a :: b :: c :: d :: t := by
    have hlen := h.header
    rcases header with _ | ⟨a, _ | ⟨b, _ | ⟨c, _ | ⟨d, t⟩⟩⟩⟩ <;> simp at hlen
    exact ⟨a, b, c, d, t, rfl⟩
  rw [h.eq]
  exact ⟨_, _, reads_flags h2 h3 _, rfl⟩

/-- On every request the responder stays inside its slices. It answers just the requests that
start with a header and a plainly read question, where the answer fits; it leaves the rest of the
buffer alone, all of it where it does not answer; and what it writes decodes to the answer. -/
theorem buildResponse_correct (req : List UInt8) (answerIp : Vector UInt8 4) (out : List UInt8) :
    ∃ r out', buildResponse req answerIp out = .ok (r, out') ∧
      (∀ n, r = some n ↔ ∃ header name typeClass extra, Framed req header name typeClass extra ∧
        n = responseLength name typeClass ∧ n ≤ out.length) ∧
      (r = none → out' = out) ∧
      ∀ n, r = some n → out'.length = out.length ∧ out'.drop n = out.drop n ∧
        ∃ header name typeClass extra f rest, Framed req header name typeClass extra ∧
          flags (req.drop 2) = some (f, rest) ∧
          decode (out'.take n) =
            some (replyMessage (req.take 2) f.rd name typeClass answerIp) := by
  obtain ⟨o, hend, ho⟩ := parseQuestionEnd_ok req
  rcases o with _ | qEnd
  · have hbuild : buildResponse req answerIp out = .ok (none, out) := by
      unfold buildResponse
      rw [hend]
      rfl
    refine ⟨none, out, hbuild, fun n => ⟨fun h => (by cases h), ?_⟩, fun _ => rfl,
      fun n h => by cases h⟩
    rintro ⟨header, name, typeClass, extra, hframed, -⟩
    rw [parseQuestionEnd_framed hframed] at hend
    cases hend
  obtain ⟨header, name, typeClass, extra, hframed, -⟩ := ho qEnd rfl
  have hbuild := buildResponse_framed hframed answerIp out
  -- however the request is read, the length it gives is the one computed
  have hunique : ∀ {header' name' typeClass' extra'},
      Framed req header' name' typeClass' extra' → responseLength name' typeClass' ≤ out.length →
      ∃ out', buildResponse req answerIp out
        = .ok (some (responseLength name' typeClass'), out') := by
    intro header' name' typeClass' extra' h hle
    have := buildResponse_framed h answerIp out
    rw [if_pos hle] at this
    obtain ⟨out', h', -⟩ := this
    exact ⟨out', h'⟩
  by_cases hfits : responseLength name typeClass ≤ out.length
  · rw [if_pos hfits] at hbuild
    obtain ⟨out', hbuild, hfilled⟩ := hbuild
    refine ⟨_, out', hbuild, fun n => ⟨fun h => ?_, ?_⟩, fun h => (by cases h), fun n h => ?_⟩
    · cases h
      exact ⟨header, name, typeClass, extra, hframed, rfl, hfits⟩
    · rintro ⟨header', name', typeClass', extra', h', rfl, hle⟩
      obtain ⟨out'', h''⟩ := hunique h' hle
      rw [hbuild] at h''
      simp only [Except.ok.injEq, Prod.mk.injEq] at h''
      exact h''.1
    · cases h
      have hid : (req.take 2).length = 2 := by
        rw [List.length_take, hframed.length_eq]
        omega
      have hlen := length_response hid (header.getD 2 0) name typeClass answerIp
      obtain ⟨f, rest, hf, hrd⟩ := hframed.flags
      rw [← hlen]
      refine ⟨hfilled.length_eq, hfilled.drop_eq, header, name, typeClass, extra, f, rest, hframed,
        hf, ?_⟩
      rw [hfilled.take_eq, hrd]
      exact decode_response hid _ hframed.name hframed.typeClass answerIp
  · rw [if_neg hfits] at hbuild
    refine ⟨none, out, hbuild, fun n => ⟨fun h => (by cases h), ?_⟩, fun _ => rfl,
      fun n h => by cases h⟩
    rintro ⟨header', name', typeClass', extra', h', rfl, hle⟩
    obtain ⟨out'', h''⟩ := hunique h' hle
    rw [hbuild] at h''
    cases h''

end DnsPacket

end Esp32Battery
