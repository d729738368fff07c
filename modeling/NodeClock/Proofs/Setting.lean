import NodeClock.Exchange.Session
import NodeClock.Proofs.Frame
import NodeClock.Proofs.Query
import NodeClock.Setting

/-!
# A node gets the time that was sent

* `WireFormat.Fits`: the times that a format can carry.
* `WireFormat.Tells`: the time that a request tells its receiver.
* `Target.setRequest_tells`: the request made for a target tells the time it was made of.
* `Target.setRequest_arrives`: **so does the request that is read from its datagram**.
-/

namespace NodeClock

open Coap

/-- The times that a format can carry. -/
def WireFormat.Fits : WireFormat → Civil → Prop
  | .query, t => 0 ≤ t.year ∧ t.year ≤ 9999
  | .epoch, t => 0 ≤ t.seconds ∧ t.seconds ≤ Civil.maxEpoch

/-- The time that a request tells its receiver: by its query, or by the number in its body. -/
def WireFormat.Tells : WireFormat → Request → Civil → Prop
  | .query, r, t => Civil.ofPairs r.query = .ok t
  | .epoch, r, t => r.query = [] ∧ r.contentFormat = some 0 ∧
      ∃ text n, Utf8.decode? r.payload = some text ∧
        Decimal.read? Civil.maxEpoch text.toList = some n ∧ Civil.ofEpoch n = t

variable {t : Civil} {format : WireFormat}

/-- What is rendered tells the time it was rendered of. -/
theorem Civil.render_tells (ht : t.Valid) (hfit : format.Fits t) (method : Method)
    (path : List String) :
    ∃ r, t.render method path format = .ok r ∧ r.method = method ∧ r.path = path ∧
      format.Tells r t := by
  cases format with
  | query => exact ⟨_, rfl, rfl, rfl, ofPairs_map ht hfit (List.Perm.refl _)⟩
  | epoch =>
    obtain ⟨n, hmax, hn, hback⟩ := ofEpoch_epoch ht hfit.1 hfit.2
    have hread : Decimal.read? maxEpoch (Decimal.render n).toList = some n := by
      rw [Decimal.render, String.toList_ofList]
      exact Decimal.read?_digits hmax
    refine ⟨_, by rw [render, hn], rfl, rfl, rfl, rfl, ?_⟩
    exact ⟨_, n, Utf8.decode?_encode _, hread, hback⟩

namespace Target

theorem uriHost?_eq_some_iff {target : Target} {name : String} :
    target.uriHost? = some name ↔ target.host = .named name := by
  unfold uriHost?
  cases target.host <;> simp

/-- **The request made for a target** tells the time it was made of. -/
theorem setRequest_tells (target : Target) (method : SetMethod) (ht : t.Valid)
    (hfit : format.Fits t) :
    ∃ r, target.setRequest t method format = .ok r ∧ r.method = method.toMethod ∧
      r.path = target.segments ∧ (∀ name, r.uriHost = some name ↔ target.host = .named name) ∧
      format.Tells r t := by
  obtain ⟨r, hr, hmethod, hpath, htells⟩ :=
    Civil.render_tells ht hfit method.toMethod target.segments
  refine ⟨{ r with uriHost := target.uriHost? }, by rw [setRequest, hr], hmethod, hpath, ?_, ?_⟩
  · exact fun _ => uriHost?_eq_some_iff
  · cases format with
    | query => exact htells
    | epoch => exact htells

/-- **A node gets the time that was sent.** For each target, method and format, and each time that
the format can carry, there is a request. Either its datagram would be longer than 1280 bytes and
is refused, or the node reads the same request from it, and with it the time. -/
theorem setRequest_arrives (target : Target) (method : SetMethod) (ht : t.Valid)
    (hfit : format.Fits t) (id : UInt16) {token : Bytes} (htoken : token.length = tokenLength) :
    ∃ r, target.setRequest t method format = .ok r ∧ r.method = method.toMethod ∧
      r.path = target.segments ∧ (∀ name, r.uriHost = some name ↔ target.host = .named name) ∧
      format.Tells r t ∧
      let f := Frame.ofRequest .confirmable id token r
      (1280 < f.packet.write.length ∧ ∃ detail, f.encode = .error (.encode detail)) ∨
        (∃ b g, f.encode = .ok b ∧ b.length ≤ 1280 ∧ Frame.decode b = .ok g ∧
          g.kind = .confirmable ∧ g.messageId = id ∧ g.token = token ∧ g.request? = some r) := by
  obtain ⟨r, hr, hmethod, hpath, hhost, htells⟩ := setRequest_tells target method ht hfit
  refine ⟨r, hr, hmethod, hpath, hhost, htells, ?_⟩
  intro f
  -- no method has the code 0, so that all that is counted is written
  have hcode : f.packet.code ≠ 0 := by
    show r.method.byte ≠ 0
    cases r.method <;> decide
  have hlen : f.packet.write.length = f.packet.size := Packet.length_write_eq hcode
  have ht' : f.token.length ≤ maxToken := by
    show token.length ≤ maxToken
    rw [htoken]
    decide
  by_cases hs : f.packet.size ≤ Packet.maxSize
  · have henc : f.encode = .ok f.packet.write := Frame.encode_eq_ok_iff.2 ⟨ht', hs, rfl⟩
    have hdec := Frame.decode_encode_ofRequest henc
    exact Or.inr ⟨_, f, henc, hlen.trans_le hs, hdec, rfl, rfl, rfl, rfl⟩
  · refine Or.inl ⟨?_, "InvalidPacketLength", ?_⟩
    · rw [hlen]
      exact Nat.lt_of_not_le hs
    · rw [Frame.encode, if_neg (Nat.not_lt_of_ge ht'), if_pos (Nat.lt_of_not_le hs)]

/-- The last second of a leap day is sent to a named node. -/
theorem setRequest_arrives_leapDay :
    ∃ r b g, setRequest ⟨.named "node.local", 5683, ["date"]⟩ ⟨2024, 2, 29, 23, 59, 59⟩ .put
        .query = .ok r ∧
      (Frame.ofRequest .confirmable 7 [1, 2, 3, 4] r).encode = .ok b ∧ Frame.decode b = .ok g ∧
      g.request? = some r ∧ r.uriHost = some "node.local" ∧
      Civil.ofPairs r.query = .ok ⟨2024, 2, 29, 23, 59, 59⟩ := by
  have hvalid : Civil.Valid ⟨2024, 2, 29, 23, 59, 59⟩ := by decide
  have hfits : WireFormat.Fits .query ⟨2024, 2, 29, 23, 59, 59⟩ := ⟨by decide, by decide⟩
  obtain ⟨r, hr, -, -, hhost, htells, harrives⟩ :=
    setRequest_arrives ⟨.named "node.local", 5683, ["date"]⟩ .put hvalid hfits 7
      (rfl : ([1, 2, 3, 4] : Bytes).length = tokenLength)
  have hsmall : (Frame.ofRequest .confirmable 7 [1, 2, 3, 4] r).packet.write.length = 58 := by
    cases hr
    rfl
  obtain ⟨hlong, -⟩ | ⟨b, g, henc, -, hdec, -, -, -, hreq⟩ := harrives
  · exact absurd hlong (by rw [hsmall]; decide)
  · exact ⟨r, b, g, hr, henc, hdec, hreq, (hhost _).2 rfl, htells⟩

end Target

end NodeClock
