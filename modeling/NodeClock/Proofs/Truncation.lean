import NodeClock.Proofs.Answers
import NodeClock.Proofs.Matching
import NodeClock.Proofs.Numeral
import NodeClock.Proofs.Response

/-!
# Datagrams that are longer than the receive buffer

What does not fit the receive buffer is lost without notice, and a response is delivered without it.

* `telling`, `Exchange.answerDatagram`: answers of any length that tell a number.
* `Exchange.Decides.take`: a response is cut where its datagram is.
* `Exchange.start_delivers` (every request and history): **what is delivered of a response.**
* `Exchange.run_telling`: a number without its last digit is delivered as a tenth of it.
* `Exchange.not_delivered_whole`: **the first digits of a number may be read as the time.**
-/

namespace NodeClock

open Coap

/-! ## Answers that tell a number -/

/-- The body that tells a number behind zeros. -/
def paddedBody (k n : Nat) : Bytes :=
  Utf8.encode (String.ofList (List.replicate k '0' ++ Decimal.digits n))

section

variable {k n : Nat}

theorem isDigit_of_mem_padded {c : Char} (h : c ∈ List.replicate k '0' ++ Decimal.digits n) :
    c.isDigit = true :=
  (Decimal.tells_iff_zeros.2 ⟨k, rfl⟩).digits c h

theorem length_paddedBody (k n : Nat) :
    (paddedBody k n).length = k + (Decimal.digits n).length := by
  have hascii : ∀ c ∈ List.replicate k '0' ++ Decimal.digits n, c.toNat < 128 := by
    intro c hc
    have hdigit := isDigit_of_mem_padded hc
    simp only [Char.isDigit, Bool.and_eq_true, decide_eq_true_eq, UInt32.le_iff_toNat_le] at hdigit
    exact Nat.lt_of_le_of_lt hdigit.2 (by decide)
  rw [paddedBody, Utf8.length_encode, Utf8.utf8ByteSize_ofList hascii, List.length_append,
    List.length_replicate]

/-- The last digit of ten times a number is a zero. -/
theorem paddedBody_mul_ten (k : Nat) (h : 0 < n) :
    paddedBody k (10 * n) = paddedBody k n ++ [48] := by
  have hdigits : Decimal.digits (10 * n) = Decimal.digits n ++ ['0'] := by
    rw [Decimal.digits, Nat.toDigits_of_base_le (by decide) (by omega),
      Nat.mul_div_cancel_left n (by decide), Nat.mul_mod_right]
    rfl
  simp only [paddedBody, Utf8.encode, String.toList_ofList, hdigits, List.flatMap_append,
    List.append_assoc]
  rfl

theorem tells_paddedBody {text : String} (h : paddedBody k n = Utf8.encode text) :
    Decimal.Tells (Text.trim text.toList) n := by
  rw [← Utf8.encode_inj h, String.toList_ofList, Text.trim_eq_self fun c hc =>
    Target.isBlank_eq_false_of_isDigit (isDigit_of_mem_padded hc)]
  exact Decimal.tells_iff_zeros.2 ⟨k, rfl⟩

end

/-- The answer whose body tells a number behind zeros. -/
def telling (k n : Nat) : Response := { code := .ofParts 2 5, payload := paddedBody k n }

namespace Exchange

variable {m : UInt16} {token : Bytes} {k n : Nat}

/-- The datagram of an answer that comes with the acknowledgement. -/
def answerDatagram (m : UInt16) (token : Bytes) (r : Response) : Bytes :=
  (Frame.ofResponse .acknowledgement m token r).packet.write

theorem decode_telling (ht : token.length ≤ 8) :
    Frame.decode (answerDatagram m token (telling k n)) =
      .ok (.ofResponse .acknowledgement m token (telling k n)) := by
  have hl : (Code.response (.ofParts 2 5)).Legible := ⟨by decide, by decide⟩
  exact Frame.decode_write_ofResponse ht hl

theorem decides_telling (ht : token.length ≤ 8) :
    Decides m token (answerDatagram m token (telling k n)) (.ok (telling k n)) :=
  .piggybacked (decode_telling ht) rfl rfl rfl rfl

theorem brings_telling (ht : token.length ≤ 8) :
    Brings (answerDatagram m token (telling k n)) (telling k n) :=
  ⟨_, decode_telling ht, rfl⟩

theorem length_telling : (telling k n).payload.length = k + (Decimal.digits n).length :=
  length_paddedBody k n

/-- A body of digits is not empty. -/
theorem telling_ne_nil : (telling k n).payload ≠ [] := by
  have hpos : 0 < (Decimal.digits n).length := Nat.length_toDigits_pos
  refine List.ne_nil_of_length_pos ?_
  rw [length_telling]
  omega

theorem payload_ne_nil {f : Frame} (ht : token.length ≤ 8)
    (hf : Frame.decode (answerDatagram m token (telling k n)) = .ok f) : f.payload ≠ [] := by
  cases (decode_telling ht).symm.trans hf
  exact telling_ne_nil

theorem length_answerDatagram : (answerDatagram m token (telling k n)).length =
    5 + token.length + (k + (Decimal.digits n).length) := by
  have hc : (Code.response (.ofParts 2 5)).byte ≠ 0 := by decide
  rw [answerDatagram, Frame.length_write_ofResponse hc telling_ne_nil, length_telling]

theorem telling_mul_ten (hn : 0 < n) :
    (telling k (10 * n)).payload = (telling k n).payload ++ [48] :=
  paddedBody_mul_ten k hn

/-- The datagram does not bring a tenth of its number. -/
theorem not_brings_tenth (ht : token.length ≤ 8) (hn : 0 < n) :
    ¬ Brings (answerDatagram m token (telling k (10 * n))) (telling k n) := by
  intro h
  have hsame := congrArg (fun r => r.payload.length) (h.unique (brings_telling ht))
  simp only [telling_mul_ten hn, List.length_append, List.length_singleton] at hsame
  omega

/-- A body of digits is read as their number, if it has 32 bits. -/
theorem reading_telling (h : n ≤ Civil.maxEpoch) (now : Civil) :
    Reading.ofAnswer now (.ok (telling k n)) = .ok (Reading.ofEpoch n now) := by
  have hcls : (ResponseCode.ofParts 2 5).cls = 2 := by decide
  have hread : readEpoch (telling k n).payload = .ok n :=
    ((readEpoch_tells _).1 n).2 ⟨_, rfl, tells_paddedBody rfl, h⟩
  rw [Reading.ofAnswer_accepted hcls, hread]
  rfl

theorem reading_telling_large (h : Civil.maxEpoch < n) (now : Civil) :
    ∃ detail, Reading.ofAnswer now (.ok (telling k n)) =
      .error (.transport (.protocol detail)) := by
  have hcls : (ResponseCode.ofParts 2 5).cls = 2 := by decide
  obtain ⟨detail, hread⟩ :
      ∃ detail, readEpoch (telling k n).payload = .error (.transport (.protocol detail)) := by
    refine (readEpoch_tells _).2 fun text htext m hm htells => ?_
    have hsame := htells.unique (tells_paddedBody htext)
    omega
  refine ⟨detail, ?_⟩
  rw [Reading.ofAnswer_accepted hcls, hread]
  rfl

end Exchange

/-! ## Responses that are delivered -/

namespace Exchange

variable {x y : Exchange} {d : Bytes} {m : UInt16} {k : Bytes} {n : Nat} {r : Response}

/-- **A response whose payload begins before the cut still decides its request**, without what is
behind the cut. -/
theorem Decides.take (h : Decides m k d (.ok r)) (hp : r.payload ≠ [])
    (hn : d.length - r.payload.length ≤ n) :
    ∃ kept, kept ++ d.drop n = r.payload ∧
      Decides m k (d.take n) (.ok { r with payload := kept }) := by
  cases h with
  | piggybacked hd hkind hid htoken hcode =>
    obtain ⟨kept, hkept, htake⟩ := Frame.exists_decode_take hd hp hn
    exact ⟨kept, hkept, .piggybacked htake hkind hid htoken hcode⟩
  | separate hd hkind htoken hcode =>
    obtain ⟨kept, hkept, htake⟩ := Frame.exists_decode_take hd hp hn
    exact ⟨kept, hkept, .separate htake hkind htoken hcode⟩

/-- Only what fits the receive buffer is read. -/
theorem step_take (x : Exchange) (d : Bytes) (s : Except IoError Unit) :
    x.step (.received (d.take receiveLimit) s) = x.step (.received d s) := by
  simp only [step]
  rw [List.take_take, Nat.min_self]

/-- What fits the receive buffer of a datagram ends an exchange if it decides the request. -/
theorem step_ended_of_take {result : Except TransportError Response} {s : Except IoError Unit}
    (h : Decides x.messageId x.token (d.take receiveLimit) result) :
    (x.step (.received d s)).2 = .ended result := by
  rw [← step_take]
  exact (step_ended_iff (List.length_take_le _ _)).2 ⟨_, _, rfl, h⟩

/-- **What is delivered of a response.** The response that ends an exchange well is the one in the
bytes that fit the receive buffer. It is the one that the node sent exactly if the datagram fits as
a whole or has no payload; if it does not fit and some payload was delivered, then all that was cut
off belongs to the payload, too. And a datagram that does not fit is neither ignored nor refused: if
it brings the awaited response and its payload begins within the buffer, then the exchange ends well
with what is left of it. -/
theorem start_delivers {maxRetransmit : UInt32} {wait : Span} {now : Instant} {q : Request}
    (hx : start maxRetransmit m k wait now q = .ok x) :
    (∀ events sent r late, x.run events = (sent, .ended (.ok r), late) →
      ∃ early d s, events = early ++ .received d s :: late ∧ Brings (d.take receiveLimit) r ∧
        (Brings d r ↔
          d.length ≤ receiveLimit ∨ ∃ f, Frame.decode d = .ok f ∧ f.payload = []) ∧
        (receiveLimit < d.length → r.payload ≠ [] →
          Brings d { r with payload := r.payload ++ d.drop receiveLimit })) ∧
    ∀ early sent y d s r, x.run early = (sent, .pending y, []) → Decides m k d (.ok r) →
      receiveLimit < d.length → r.payload ≠ [] → d.length - r.payload.length ≤ receiveLimit →
      ∃ sent' kept, kept ++ d.drop receiveLimit = r.payload ∧
        x.run (early ++ [.received d s]) =
          (sent', .ended (.ok { r with payload := kept }), []) := by
  obtain ⟨rfl, rfl, -, -⟩ := start_eq_ok hx
  constructor
  · intro events sent r late hr
    obtain ⟨early, d, s, f, hevents, hf, -, hresponse, -⟩ := run_ended_ok hr
    have htake : Brings (d.take receiveLimit) r := ⟨f, hf, hresponse⟩
    exact ⟨early, d, s, hevents, htake, brings_take_iff htake, fun _ hp => htake.lost hp⟩
  · intro early sent y d s r hr hd _ hp hfits
    obtain ⟨kept, hkept, htake⟩ := hd.take hp hfits
    have hkin := run_kin hr
    rw [← hkin.messageId, ← hkin.token] at htake
    have hlast := step_ended_of_take (s := s) htake
    refine ⟨sent ++ (y.step (.received d s)).1, kept, hkept, ?_⟩
    rw [run_append_pending hr, run_cons_ended (Prod.ext rfl hlast)]

/-- The answer to the repeated request ends in a digit that does not fit: it is delivered without
this digit, and so is not the answer that the node sent. -/
theorem start_delivers_digits :
    let answer := telling 1261 17356896000
    let d := answerDatagram 7 [1, 2, 3, 4] answer
    ∃ x sent kept, start 1 7 [1, 2, 3, 4] (.ofMillis 2000) 0 { method := .get } = .ok x ∧
      x.run ([.expired 2000000000 (.ok ())] ++ [.received d (.ok ())]) =
        (sent, .ended (.ok { answer with payload := kept }), []) ∧
      kept ++ d.drop receiveLimit = answer.payload ∧
      ¬ Brings d { answer with payload := kept } := by
  intro answer d
  have hdigits : (Decimal.digits 17356896000).length = 11 := by decide
  have hlen : d.length = 1281 := by
    rw [length_answerDatagram, hdigits]
    rfl
  have hbody : answer.payload.length = 1272 := by
    rw [length_telling, hdigits]
  have hlong : receiveLimit < d.length := by
    rw [hlen]
    decide
  have hfits : d.length - answer.payload.length ≤ receiveLimit := by
    rw [hlen, hbody]
    decide
  obtain ⟨x, hx, early, y, hearly⟩ : ∃ x,
      start 1 7 [1, 2, 3, 4] (.ofMillis 2000) 0 { method := .get } = .ok x ∧
      ∃ early y, x.run [.expired 2000000000 (.ok ())] = (early, .pending y, []) :=
    ⟨_, rfl, _, _, rfl⟩
  obtain ⟨hends, hgoes⟩ := start_delivers hx
  obtain ⟨sent, kept, hkept, hrun⟩ := hgoes _ _ _ d (.ok ()) answer hearly
    (decides_telling (by decide)) hlong telling_ne_nil hfits
  refine ⟨x, sent, kept, hx, hrun, hkept, fun hbrings => ?_⟩
  obtain ⟨before, d', s, hevents, -, hiff, -⟩ := hends _ _ _ _ hrun
  obtain ⟨-, hlast⟩ := List.append_inj' hevents rfl
  cases hlast
  obtain hshort | ⟨f, hf, hempty⟩ := hiff.1 hbrings
  · omega
  · exact payload_ne_nil (by decide) hf hempty

section

variable {token : Bytes} {k : Nat} {s : Except IoError Unit}

/-- **If all but the last digit fits the receive buffer**, a tenth of the number is delivered. -/
theorem step_telling (ht : x.token.length ≤ 8) (hn : 0 < n)
    (hfull : 5 + x.token.length + (k + (Decimal.digits n).length) = receiveLimit) :
    (x.step (.received (answerDatagram x.messageId x.token (telling k (10 * n))) s)).2 =
      .ended (.ok (telling k n)) := by
  have hbody := telling_mul_ten (k := k) hn
  have hdigits := congrArg List.length hbody
  rw [length_telling, List.length_append, length_telling, List.length_singleton] at hdigits
  have hlen : (answerDatagram x.messageId x.token (telling k (10 * n))).length =
      receiveLimit + 1 := by
    rw [length_answerDatagram]
    omega
  have hfits : (answerDatagram x.messageId x.token (telling k (10 * n))).length -
      (telling k (10 * n)).payload.length ≤ receiveLimit := by
    rw [hlen, length_telling]
    omega
  obtain ⟨kept, hkept, htake⟩ := (decides_telling ht).take telling_ne_nil hfits
  -- the one byte that is lost is the last digit
  have hlost : kept = (telling k n).payload := by
    rw [hbody] at hkept
    refine (List.append_inj' hkept ?_).1
    rw [List.length_drop, hlen]
    exact Nat.add_sub_cancel_left _ _
  rw [hlost] at htake
  exact step_ended_of_take htake

theorem run_telling {maxRetransmit : UInt32} {wait : Span} {now : Instant} {q : Request}
    (hx : start maxRetransmit m token wait now q = .ok x) (ht : token.length ≤ 8) (hn : 0 < n)
    (hfull : 5 + token.length + (k + (Decimal.digits n).length) = receiveLimit) :
    ∃ out, x.run [.received (answerDatagram m token (telling k (10 * n))) s] =
      (out, .ended (.ok (telling k n)), []) := by
  obtain ⟨rfl, rfl, -, -⟩ := start_eq_ok hx
  exact ⟨_, run_cons_ended (Prod.ext rfl (step_telling ht hn hfull))⟩

end

/-- **A response may be delivered cut short.** The number 17356896000 has too many bits for epoch
seconds. A node tells it in a datagram of 1281 bytes, of which the last one is lost, and with it the
last digit: the exchange ends well with a response that the datagram does not bring, and this is
read as the beginning of 2025. -/
theorem not_delivered_whole :
    let sent := telling 1261 17356896000
    let d := answerDatagram 7 [1, 2, 3, 4] sent
    d.length = 1281 ∧ Brings d sent ∧
      (∀ now, ∃ detail,
        Reading.ofAnswer now (.ok sent) = .error (.transport (.protocol detail))) ∧
      ∃ x out r, start 4 7 [1, 2, 3, 4] (.ofMillis 2000) 0 { method := .get } = .ok x ∧
        x.run [.received d (.ok ())] = (out, .ended (.ok r), []) ∧ ¬ Brings d r ∧
        ∀ now, Reading.ofAnswer now (.ok r) = .ok (Reading.ofEpoch 1735689600 now) := by
  have hten : 17356896000 = 10 * 1735689600 := by norm_num
  have hpos : 0 < 1735689600 := by norm_num
  have hdigits : (Decimal.digits 1735689600).length = 10 := by decide
  have hlonger : (Decimal.digits 17356896000).length = 11 := by decide
  obtain ⟨x, hx⟩ : ∃ x, start 4 7 [1, 2, 3, 4] (.ofMillis 2000) 0 { method := .get } = .ok x :=
    ⟨_, rfl⟩
  obtain ⟨out, hrun⟩ := run_telling (k := 1261) (s := .ok ()) hx (by decide) hpos
    (by rw [hdigits]; rfl)
  refine ⟨?_, brings_telling (by decide), reading_telling_large (by decide), x, out,
    telling 1261 1735689600, hx, ?_, ?_, reading_telling (by decide)⟩
  · rw [length_answerDatagram, hlonger]
    rfl
  · rw [hten]
    exact hrun
  · rw [hten]
    exact not_brings_tenth (by decide) hpos

end Exchange

end NodeClock
