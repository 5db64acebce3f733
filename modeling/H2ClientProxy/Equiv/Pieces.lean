import H2ClientProxy.HttpParser.Requests
import H2ClientProxy.Lib.Coalesce

/-!
# A stream of requests in any pieces

`client_readcb` gives the parser whatever `recv` returns, so the requests of a connection arrive in
pieces that have nothing to do with their structure.

* `Part` is what a mark is for, and `mergeCalls` merges two calls with data of the same part.
* `Sim`: the run on the whole input and the run on the last piece agree, up to the calls in which the
  data is delivered.
* `Sim.execByte`: they still agree after one more byte.
* `executePieces_congr`: however the input is cut, the parser ends in the same state, and the calls are
  the same up to the cuts.
-/

namespace H2ClientProxy

open Coalesce

/-! ### Data that is delivered in parts -/

/-- What a mark is for. -/
inductive Part where
  | headerField | headerValue | url | body
  deriving DecidableEq

/-- The call that delivers data. -/
def Part.call : Part → Bytes → Callback
  | .headerField => .headerField
  | .headerValue => .headerValue
  | .url => .url
  | .body => .body

/-- Two calls with data of the same part, one after the other. -/
def mergeCalls : Callback → Callback → Option Callback
  | .headerField a, .headerField b => some (.headerField (a ++ b))
  | .headerValue a, .headerValue b => some (.headerValue (a ++ b))
  | .url a, .url b => some (.url (a ++ b))
  | .body a, .body b => some (.body (a ++ b))
  | _, _ => none

theorem mergeCalls_eq_some {a b ab : Callback} (h : mergeCalls a b = some ab) :
    ∃ (j : Part) (x y : Bytes), a = j.call x ∧ b = j.call y ∧ ab = j.call (x ++ y) := by
  unfold mergeCalls at h
  split at h
  · exact ⟨.headerField, _, _, rfl, rfl, (Option.some.inj h).symm⟩
  · exact ⟨.headerValue, _, _, rfl, rfl, (Option.some.inj h).symm⟩
  · exact ⟨.url, _, _, rfl, rfl, (Option.some.inj h).symm⟩
  · exact ⟨.body, _, _, rfl, rfl, (Option.some.inj h).symm⟩
  · exact absurd h.symm (Option.some_ne_none ab)

theorem mergeCalls_call (j : Part) (x y : Bytes) :
    mergeCalls (j.call x) (j.call y) = some (j.call (x ++ y)) := by
  cases j <;> rfl

/-- Whether a call can be merged with data depends on its part alone. -/
theorem mergeCalls_call_congr (j : Part) (x x' : Bytes) (c : Callback) :
    mergeCalls (j.call x) c = none ↔ mergeCalls (j.call x') c = none := by
  cases j <;> cases c <;> simp [Part.call, mergeCalls]

theorem mergeable_mergeCalls : Mergeable mergeCalls where
  assoc := by
    intro a b c ab bc hab hbc
    obtain ⟨j, x, y, rfl, rfl, rfl⟩ := mergeCalls_eq_some hab
    obtain ⟨j', y', z, hb, rfl, rfl⟩ := mergeCalls_eq_some hbc
    have hj : j = j' ∧ y = y' := by
      cases j <;> cases j' <;> simp [Part.call] at hb ⊢ <;> exact hb
    obtain ⟨rfl, rfl⟩ := hj
    refine ⟨j.call (x ++ y ++ z), mergeCalls_call j _ _, ?_⟩
    rw [mergeCalls_call, List.append_assoc]
  right := by
    intro a b c ab hab hbc
    obtain ⟨j, x, y, rfl, rfl, rfl⟩ := mergeCalls_eq_some hab
    exact (mergeCalls_call_congr j y (x ++ y) c).mp hbc

/-! ### Marks -/

namespace Exec

variable {e : Exec} {j : Part} {k : Option Part} {x : Bytes}

/-- The mark for a part. -/
def markOf (e : Exec) : Part → Option Bytes
  | .headerField => e.headerFieldMark
  | .headerValue => e.headerValueMark
  | .url => e.urlMark
  | .body => e.bodyMark

/-- `CALLBACK_DATA` for a part. -/
def deliver (e : Exec) : Part → Exec
  | .headerField => e.dataHeaderField
  | .headerValue => e.dataHeaderValue
  | .url => e.dataUrl
  | .body => e.dataBody

/-- `MARK` for a part. -/
def mark (e : Exec) : Part → Exec
  | .headerField => e.markHeaderField
  | .headerValue => e.markHeaderValue
  | .url => e.markUrl
  | .body => e.markBody

/-- What the marks would deliver now. -/
def pending (e : Exec) : List Callback :=
  [Part.headerField, .headerValue, .url, .body].filterMap fun j => (e.markOf j).map j.call

/-- The calls so far, with what the marks would deliver now. -/
def outcome (e : Exec) : List Callback := e.calls ++ e.pending

/-- The mark for `k` is set, and no other one. -/
def Holds (e : Exec) (k : Option Part) : Prop := ∀ j, (e.markOf j).isSome = true ↔ k = some j

theorem Holds.eq_none (h : e.Holds none) (j : Part) : e.markOf j = none := by
  cases hm : e.markOf j with
  | none => rfl
  | some x => exact absurd ((h j).mp (by rw [hm]; rfl)) (Option.some_ne_none j).symm

theorem Holds.eq_some (h : e.Holds (some j)) : ∃ x, e.markOf j = some x :=
  Option.isSome_iff_exists.mp ((h j).mpr rfl)

theorem Holds.eq_none_of_ne (h : e.Holds (some j)) {j' : Part} (hj : j' ≠ j) : e.markOf j' = none := by
  cases hm : e.markOf j' with
  | none => rfl
  | some x => exact absurd (Option.some.inj ((h j').mp (by rw [hm]; rfl))).symm hj

theorem Holds.outcome_none (h : e.Holds none) : e.outcome = e.calls := by
  simp [outcome, pending, h.eq_none]

theorem Holds.outcome_some (h : e.Holds (some j)) (hx : e.markOf j = some x) :
    e.outcome = e.calls ++ [j.call x] := by
  cases j <;> simp [outcome, pending, hx, h.eq_none_of_ne]

/-- A mark is delivered where its data would have been delivered anyway. -/
theorem Holds.deliver (h : e.Holds k) (hk : k = none ∨ k = some j) :
    (e.deliver j).outcome = e.outcome ∧ (e.deliver j).Holds none := by
  rcases hk with rfl | rfl
  · have hsame : e.deliver j = e := by
      have hj := h.eq_none j
      cases j <;> simp_all [Exec.deliver, markOf, dataHeaderField, dataHeaderValue, dataUrl, dataBody]
    rw [hsame]
    exact ⟨rfl, h⟩
  · obtain ⟨x, hx⟩ := h.eq_some
    have hnone : (e.deliver j).Holds none := by
      intro j'
      have hne : j' ≠ j → e.markOf j' = none := h.eq_none_of_ne
      cases j <;> cases j' <;>
        simp_all [Exec.deliver, markOf, dataHeaderField, dataHeaderValue, dataUrl, dataBody, notify]
    refine ⟨?_, hnone⟩
    rw [hnone.outcome_none, h.outcome_some hx]
    cases j <;> simp_all [Exec.deliver, markOf, dataHeaderField, dataHeaderValue, dataUrl, dataBody,
      notify, Part.call]

/-- A mark is set where the data begins. -/
theorem Holds.mark_none (h : e.Holds none) (j : Part) :
    (e.mark j).outcome = e.outcome ++ [j.call []] ∧ (e.mark j).Holds (some j) := by
  have hall := h.eq_none
  have hsome : (e.mark j).Holds (some j) := by
    intro j'
    have h1 := hall j'
    have h2 := hall j
    cases j <;> cases j' <;>
      simp_all [mark, markOf, markHeaderField, markHeaderValue, markUrl, markBody]
  have hx : (e.mark j).markOf j = some [] := by
    have h2 := hall j
    cases j <;> simp_all [mark, markOf, markHeaderField, markHeaderValue, markUrl, markBody]
  refine ⟨?_, hsome⟩
  rw [hsome.outcome_some hx, h.outcome_none]
  cases j <;> rfl

theorem Holds.mark_some (h : e.Holds (some j)) : e.mark j = e := by
  obtain ⟨x, hx⟩ := h.eq_some
  obtain ⟨p, m1, m2, m3, m4, calls⟩ := e
  cases j <;> simp_all [mark, markOf, markHeaderField, markHeaderValue, markUrl, markBody]

/-- A byte that is passed belongs to what is marked. -/
theorem Holds.pass (h : e.Holds k) (ch : UInt8) :
    coalesce mergeCalls (e.pass ch).outcome =
      coalesce mergeCalls (e.outcome ++ k.toList.map fun j => j.call [ch]) ∧ (e.pass ch).Holds k := by
  have hmark : ∀ j, (e.pass ch).markOf j = (e.markOf j).map (· ++ [ch]) := by
    intro j
    cases j <;> rfl
  have hholds : (e.pass ch).Holds k := by
    intro j
    rw [hmark j, Option.isSome_map]
    exact h j
  refine ⟨?_, hholds⟩
  cases k with
  | none =>
    rw [hholds.outcome_none, h.outcome_none]
    exact congrArg _ (List.append_nil _).symm
  | some j =>
    obtain ⟨x, hx⟩ := h.eq_some
    have hx' : (e.pass ch).markOf j = some (x ++ [ch]) := by rw [hmark j, hx]; rfl
    rw [hholds.outcome_some hx', h.outcome_some hx, List.append_assoc]
    exact (coalesce_merge mergeable_mergeCalls (mergeCalls_call j x [ch]) e.calls []).symm

end Exec

/-! ### Two runs that agree -/

/-- `e1` is the run on the whole input, `e2` the run on the last piece of it, and `pre` the calls for the
pieces before that.  In the middle of a body the mark of `e2` may not be set yet. -/
structure Sim (pre : List Callback) (k : Option Part) (e1 e2 : Exec) : Prop where
  parser : e1.parser = e2.parser
  holds1 : e1.Holds k
  holds2 : e2.Holds k ∨ (k = some .body ∧ e2.Holds none)
  outcome : coalesce mergeCalls e1.outcome = coalesce mergeCalls (pre ++ e2.outcome)

variable {pre : List Callback} {k : Option Part} {e1 e2 : Exec} {j : Part}

namespace Sim

theorem none2 (h : Sim pre none e1 e2) : e2.Holds none :=
  h.holds2.resolve_right fun hb => Option.some_ne_none _ hb.1.symm

/-- A change of the parser. -/
theorem setParser (h : Sim pre k e1 e2) (p : HttpParser) :
    Sim pre k { e1 with parser := p } { e2 with parser := p } where
  parser := rfl
  holds1 := h.holds1
  holds2 := h.holds2
  outcome := h.outcome

theorem goto (h : Sim pre k e1 e2) (s : ParserState) : Sim pre k (e1.goto s) (e2.goto s) := by
  unfold Exec.goto
  rw [h.parser]
  exact h.setParser _

theorem notify (h : Sim pre none e1 e2) (cb : Callback) : Sim pre none (e1.notify cb) (e2.notify cb) where
  parser := h.parser
  holds1 := h.holds1
  holds2 := Or.inl h.none2
  outcome := by
    have h1 : (e1.notify cb).Holds none := h.holds1
    have h2 : (e2.notify cb).Holds none := h.none2
    have hout := h.outcome
    rw [h.holds1.outcome_none, h.none2.outcome_none] at hout
    rw [h1.outcome_none, h2.outcome_none, Exec.notify, Exec.notify, ← List.append_assoc]
    exact coalesce_append_left mergeable_mergeCalls hout [cb]

theorem deliver_state (e : Exec) (j : Part) : (e.deliver j).parser = e.parser := by
  cases j <;> simp only [Exec.deliver, Exec.dataHeaderField, Exec.dataHeaderValue, Exec.dataUrl,
    Exec.dataBody, Exec.notify] <;> split <;> rfl

theorem deliver (h : Sim pre k e1 e2) (hk : k = none ∨ k = some j) :
    Sim pre none (e1.deliver j) (e2.deliver j) := by
  have h1 := h.holds1.deliver hk
  have h2 : (e2.deliver j).outcome = e2.outcome ∧ (e2.deliver j).Holds none := by
    rcases h.holds2 with h2 | ⟨-, h2⟩
    · exact h2.deliver hk
    · exact h2.deliver (Or.inl rfl)
  refine ⟨?_, h1.2, Or.inl h2.2, ?_⟩
  · rw [deliver_state, deliver_state, h.parser]
  · rw [h1.1, h2.1, h.outcome]

theorem mark_state (e : Exec) (j : Part) : (e.mark j).parser = e.parser := by
  cases j <;> rfl

theorem mark (h : Sim pre k e1 e2) (hk : k = none ∨ k = some j) :
    Sim pre (some j) (e1.mark j) (e2.mark j) ∧ (e2.mark j).Holds (some j) := by
  have hparser : (e1.mark j).parser = (e2.mark j).parser := by
    rw [mark_state, mark_state, h.parser]
  rcases hk with rfl | rfl
  · -- the data begins in both runs
    obtain ⟨ho1, hh1⟩ := h.holds1.mark_none j
    obtain ⟨ho2, hh2⟩ := h.none2.mark_none j
    refine ⟨⟨hparser, hh1, Or.inl hh2, ?_⟩, hh2⟩
    rw [ho1, ho2, ← List.append_assoc]
    exact coalesce_append_left mergeable_mergeCalls h.outcome _
  · have h1 : e1.mark j = e1 := h.holds1.mark_some
    rcases h.holds2 with h2 | ⟨-, h2⟩
    · have hsame : e2.mark j = e2 := h2.mark_some
      rw [hsame, h1]
      exact ⟨h, h2⟩
    · -- it goes on in the run on the whole input, and begins with a piece in the other one
      obtain ⟨ho2, hh2⟩ := h2.mark_none j
      refine ⟨⟨hparser, by rw [h1]; exact h.holds1, Or.inl hh2, ?_⟩, hh2⟩
      obtain ⟨x, hx⟩ := h.holds1.eq_some
      have hempty : coalesce mergeCalls (e1.outcome ++ [j.call []]) = coalesce mergeCalls e1.outcome := by
        rw [h.holds1.outcome_some hx, List.append_assoc]
        have hm : mergeCalls (j.call x) (j.call []) = some (j.call x) := by
          rw [mergeCalls_call, List.append_nil]
        exact coalesce_merge mergeable_mergeCalls hm e1.calls []
      rw [h1, ho2, ← hempty, ← List.append_assoc]
      exact coalesce_append_left mergeable_mergeCalls h.outcome _

theorem pass (h : Sim pre k e1 e2) (h2 : e2.Holds k) (ch : UInt8) :
    Sim pre k (e1.pass ch) (e2.pass ch) := by
  obtain ⟨ho1, hh1⟩ := h.holds1.pass ch
  obtain ⟨ho2, hh2⟩ := h2.pass ch
  refine ⟨h.parser, hh1, Or.inl hh2, ?_⟩
  rw [ho1, coalesce_append_right ho2 pre, ← List.append_assoc]
  exact coalesce_append_left mergeable_mergeCalls h.outcome _

end Sim

/-! ### One byte -/

/-- The mark that can be set in a state. -/
def ParserState.part : ParserState → Option Part
  | .headerField => some .headerField
  | .headerValue => some .headerValue
  | .url .spacesBeforeUrl => none
  | .url _ => some .url
  | .chunkData | .chunkDataAlmostDone | .bodyIdentity | .bodyIdentityEof => some .body
  | _ => none

/-- The mark that is set in a state: that for a body only behind its first byte. -/
def ParserState.Marks (s : ParserState) (k : Option Part) : Prop :=
  k = s.part ∨ (k = none ∧ s.part = some .body)

/-- What a byte has to do to two runs that agree. -/
structure Agree (pre : List Callback) (e1 e2 : Exec) : Prop where
  parser : e1.parser = e2.parser
  sim : e1.parser.errno = none → ∃ k, e1.parser.state.Marks k ∧ Sim pre k e1 e2 ∧ e2.Holds k

theorem Agree.of_sim (h : Sim pre k e1 e2) (h2 : e2.Holds k) (hk : e1.parser.state.Marks k) :
    Agree pre e1 e2 := ⟨h.parser, fun _ => ⟨k, hk, h, h2⟩⟩

theorem Agree.of_none (h : Sim pre none e1 e2) (hk : e1.parser.state.Marks none) : Agree pre e1 e2 :=
  .of_sim h h.none2 hk

/-- The data of a part has ended. -/
theorem Agree.deliver (h : Sim pre k e1 e2) (hk : k = none ∨ k = some j)
    (hs : e1.parser.state.Marks none) : Agree pre (e1.deliver j) (e2.deliver j) :=
  .of_none (h.deliver hk) (by rw [Sim.deliver_state]; exact hs)

theorem Agree.fail (h : e1.parser = e2.parser) (errno : HttpErrno) :
    Agree pre (e1.fail errno) (e2.fail errno) where
  parser := by rw [Exec.fail, Exec.fail, h]
  sim := fun he => absurd he (Option.some_ne_none errno)

theorem Sim.fail (h : Sim pre k e1 e2) (errno : HttpErrno) :
    Agree pre (e1.fail errno) (e2.fail errno) := .fail h.parser errno

theorem Sim.to (h : Sim pre none e1 e2) {s : ParserState} (hs : s.part = none ∨ s.part = some .body) :
    Agree pre (e1.goto s) (e2.goto s) :=
  .of_none (h.goto s) (hs.elim (fun hs => Or.inl hs.symm) fun hs => Or.inr ⟨rfl, hs⟩)

/-! The request line. -/

theorem Sim.startReq (h : Sim pre none e1 e2) (hs : e1.parser.state = .startReq) (ch : UInt8) :
    Agree pre (startReq e1 ch) (startReq e2 ch) := by
  unfold H2ClientProxy.startReq
  rw [h.parser]
  dsimp only
  split_ifs
  · exact .of_none h (by rw [hs]; exact Or.inl rfl)
  · exact (h.setParser _).fail _
  · cases firstMethod ch with
    | none => exact (h.setParser _).fail _
    | some m => exact .of_none ((h.setParser _).notify _) (Or.inl rfl)

theorem Sim.reqMethod (h : Sim pre none e1 e2) (hs : e1.parser.state = .reqMethod) (ch : UInt8) :
    Agree pre (reqMethod e1 ch) (reqMethod e2 ch) := by
  unfold H2ClientProxy.reqMethod
  rw [h.parser] at hs ⊢
  dsimp only
  split_ifs
  · exact h.fail _
  · exact .of_none (h.setParser _) (Or.inl rfl)
  · cases matchMethod e2.parser.method e2.parser.index ch with
    | error errno => exact h.fail _
    | ok m => exact .of_none (h.setParser _) (by show e2.parser.state.Marks none; rw [hs]; exact Or.inl rfl)

theorem parseServerChar_ne (ch : UInt8) : parseServerChar ch ≠ .spacesBeforeUrl := by
  unfold parseServerChar
  split_ifs <;> decide

/-- The url does not begin again. -/
theorem parseUrlChar_ne (s : UrlState) (ch : UInt8) : parseUrlChar s ch ≠ .spacesBeforeUrl := by
  have hserver := parseServerChar_ne ch
  unfold parseUrlChar
  cases s <;> dsimp only <;> split_ifs <;> first | decide | exact hserver

theorem part_url {s : UrlState} (hs : s ≠ .spacesBeforeUrl) : (ParserState.url s).part = some .url := by
  cases s <;> first | rfl | exact absurd rfl hs

/-- The next state of the url, when it is marked. -/
theorem Sim.urlChar (h : Sim pre (some .url) e1 e2) (h2 : e2.Holds (some .url)) (s : UrlState)
    (ch : UInt8) : Agree pre (urlChar e1 s ch) (urlChar e2 s ch) := by
  unfold H2ClientProxy.urlChar
  dsimp only
  split_ifs
  · exact (h.goto _).fail _
  · exact .of_sim (h.goto _) h2 (Or.inl (part_url (parseUrlChar_ne s ch)).symm)

theorem Sim.url2 (h : Sim pre (some .url) e1 e2) : e2.Holds (some .url) :=
  h.holds2.resolve_right fun hb => absurd hb.1 (by decide)

/-- The end of the url. -/
theorem Sim.urlEnd (h : Sim pre (some .url) e1 e2) (hs : e1.parser.state.Marks none) :
    Agree pre e1.dataUrl e2.dataUrl := by
  have hd : Agree pre (e1.deliver .url) (e2.deliver .url) := .deliver h (Or.inr rfl) hs
  exact hd

theorem Sim.reqUrl {s : UrlState} (h : Sim pre (ParserState.url s).part e1 e2)
    (hs : e1.parser.state = .url s) (ch : UInt8) : Agree pre (reqUrl e1 s ch) (reqUrl e2 s ch) := by
  have hmark : s ≠ .spacesBeforeUrl → Sim pre (some .url) e1 e2 := fun hne => part_url hne ▸ h
  unfold H2ClientProxy.reqUrl
  cases s with
  | spacesBeforeUrl =>
    have hm : Sim pre (some .url) e1.markUrl e2.markUrl ∧ e2.markUrl.Holds (some .url) :=
      h.mark (j := .url) (Or.inl rfl)
    dsimp only
    rw [h.parser]
    split_ifs
    · exact .of_none h (by rw [hs]; exact Or.inl rfl)
    · exact hm.1.urlChar hm.2 _ ch
    · exact hm.1.urlChar hm.2 _ ch
  | schema | schemaSlash | schemaSlashSlash | serverStart =>
    have h := hmark (by decide)
    dsimp only
    split_ifs
    · exact h.fail _
    · exact h.urlChar h.url2 _ ch
  | server | serverWithAt | path | queryStringStart | queryString | fragmentStart | fragment | dead =>
    have h := hmark (by decide)
    dsimp only
    rw [h.parser]
    split_ifs
    · exact (h.goto .reqHttpStart).urlEnd (Or.inl rfl)
    · exact (h.setParser _).urlEnd (Or.inl rfl)
    · exact (h.setParser _).urlEnd (Or.inl rfl)
    · exact h.urlChar h.url2 _ ch

theorem Sim.expectByte (h : Sim pre none e1 e2) (ch c : UInt8) {next : ParserState}
    (hs : next.part = none) : Agree pre (expectByte e1 ch c next) (expectByte e2 ch c next) := by
  unfold H2ClientProxy.expectByte
  split_ifs
  · exact h.to (Or.inl hs)
  · exact h.fail _

theorem Sim.reqHttpStart (h : Sim pre none e1 e2) (hs : e1.parser.state = .reqHttpStart) (ch : UInt8) :
    Agree pre (reqHttpStart e1 ch) (reqHttpStart e2 ch) := by
  unfold H2ClientProxy.reqHttpStart
  split_ifs
  · exact h.to (Or.inl rfl)
  · exact .of_none h (by rw [hs]; exact Or.inl rfl)
  · exact h.fail _

theorem Sim.reqFirstHttpMajor (h : Sim pre none e1 e2) (ch : UInt8) :
    Agree pre (reqFirstHttpMajor e1 ch) (reqFirstHttpMajor e2 ch) := by
  unfold H2ClientProxy.reqFirstHttpMajor
  rw [h.parser]
  split_ifs
  · exact h.fail _
  · exact .of_none (h.setParser _) (Or.inl rfl)

theorem Sim.reqHttpMajor (h : Sim pre none e1 e2) (hs : e1.parser.state = .reqHttpMajor) (ch : UInt8) :
    Agree pre (reqHttpMajor e1 ch) (reqHttpMajor e2 ch) := by
  unfold H2ClientProxy.reqHttpMajor
  rw [h.parser] at hs ⊢
  dsimp only
  split_ifs
  · exact h.to (Or.inl rfl)
  · exact h.fail _
  · exact (h.setParser _).fail _
  · exact .of_none (h.setParser _) (by show e2.parser.state.Marks none; rw [hs]; exact Or.inl rfl)

theorem Sim.reqFirstHttpMinor (h : Sim pre none e1 e2) (ch : UInt8) :
    Agree pre (reqFirstHttpMinor e1 ch) (reqFirstHttpMinor e2 ch) := by
  unfold H2ClientProxy.reqFirstHttpMinor
  rw [h.parser]
  split_ifs
  · exact h.fail _
  · exact .of_none (h.setParser _) (Or.inl rfl)

theorem Sim.reqHttpMinor (h : Sim pre none e1 e2) (hs : e1.parser.state = .reqHttpMinor) (ch : UInt8) :
    Agree pre (reqHttpMinor e1 ch) (reqHttpMinor e2 ch) := by
  unfold H2ClientProxy.reqHttpMinor
  rw [h.parser] at hs ⊢
  dsimp only
  split_ifs
  · exact h.to (Or.inl rfl)
  · exact h.to (Or.inl rfl)
  · exact h.fail _
  · exact (h.setParser _).fail _
  · exact .of_none (h.setParser _) (by show e2.parser.state.Marks none; rw [hs]; exact Or.inl rfl)

theorem Sim.reqLineAlmostDone (h : Sim pre none e1 e2) (ch : UInt8) :
    Agree pre (reqLineAlmostDone e1 ch) (reqLineAlmostDone e2 ch) := by
  unfold H2ClientProxy.reqLineAlmostDone
  split_ifs
  · exact h.to (Or.inl rfl)
  · exact h.fail _

/-! The end of the header. -/

/-- The next message, or none. -/
theorem Sim.messageDone (h : Sim pre none e1 e2) :
    Agree pre ((e1.goto (newMessage e1.parser)).notify .messageComplete)
      ((e2.goto (newMessage e2.parser)).notify .messageComplete) := by
  rw [h.parser]
  refine .of_none ((h.goto _).notify _) (Or.inl ?_)
  show none = (newMessage e2.parser).part
  unfold newMessage
  split_ifs <;> rfl

theorem Sim.headersDone (h : Sim pre none e1 e2) : Agree pre (headersDone e1) (headersDone e2) := by
  unfold H2ClientProxy.headersDone
  rw [h.parser]
  have h0 := h.setParser { e2.parser with nread := 0 }
  dsimp only
  split_ifs
  · exact h0.to (Or.inr rfl)
  · exact h0.to (Or.inl rfl)
  · exact h0.messageDone
  · exact h0.to (Or.inr rfl)
  · exact h0.messageDone

theorem Sim.headersAlmostDone (h : Sim pre none e1 e2) (ch : UInt8) :
    Agree pre (headersAlmostDone e1 ch) (headersAlmostDone e2 ch) := by
  have htrailing : e1.parser.flags.trailing = e2.parser.flags.trailing := by rw [h.parser]
  unfold H2ClientProxy.headersAlmostDone
  dsimp only
  rw [htrailing]
  split_ifs
  · exact h.fail _
  · exact h.messageDone
  · rw [h.parser]
    exact ((h.setParser _).notify _).headersDone

/-! The header fields. -/

theorem Sim.headerFieldStart (h : Sim pre none e1 e2) (ch : UInt8) :
    Agree pre (headerFieldStart e1 ch) (headerFieldStart e2 ch) := by
  have hm : Sim pre (some .headerField) e1.markHeaderField e2.markHeaderField ∧
      e2.markHeaderField.Holds (some .headerField) := h.mark (j := .headerField) (Or.inl rfl)
  unfold H2ClientProxy.headerFieldStart
  dsimp only
  split_ifs
  · exact h.to (Or.inl rfl)
  · exact (h.goto _).headersAlmostDone ch
  · exact h.fail _
  all_goals
    rw [hm.1.parser]
    exact .of_sim (hm.1.setParser _) hm.2 (Or.inl rfl)

theorem Sim.headerField (h : Sim pre (some .headerField) e1 e2) (hs : e1.parser.state = .headerField)
    (ch : UInt8) : Agree pre (headerField e1 ch) (headerField e2 ch) := by
  have h2 : e2.Holds (some .headerField) := h.holds2.resolve_right fun hb => absurd hb.1 (by decide)
  have hend : ∀ s : ParserState, s.part = none →
      Agree pre (e1.goto s).dataHeaderField (e2.goto s).dataHeaderField := by
    intro s hs
    have hd : Agree pre ((e1.goto s).deliver .headerField) ((e2.goto s).deliver .headerField) :=
      .deliver (h.goto s) (Or.inr rfl) (Or.inl hs.symm)
    exact hd
  unfold H2ClientProxy.headerField
  rw [h.parser] at hs ⊢
  dsimp only
  by_cases htoken : token ch ≠ 0
  · rw [if_pos htoken, if_pos htoken]
    refine .of_sim (h.setParser _) h2 ?_
    show e2.parser.state.Marks (some .headerField)
    rw [hs]
    exact Or.inl rfl
  · rw [if_neg htoken, if_neg htoken]
    split_ifs
    · exact hend _ rfl
    · exact hend _ rfl
    · exact hend _ rfl
    · exact h.fail _

/-- The end of a value. -/
theorem Sim.valueEnd (h : Sim pre (some .headerValue) e1 e2) (hs : e1.parser.state.Marks none) :
    Agree pre e1.dataHeaderValue e2.dataHeaderValue := by
  have hd : Agree pre (e1.deliver .headerValue) (e2.deliver .headerValue) := .deliver h (Or.inr rfl) hs
  exact hd

theorem Sim.value2 (h : Sim pre (some .headerValue) e1 e2) : e2.Holds (some .headerValue) :=
  h.holds2.resolve_right fun hb => absurd hb.1 (by decide)

/-- A value goes on. -/
theorem Sim.value (h : Sim pre (some .headerValue) e1 e2) {p : HttpParser} (hs : p.state = .headerValue) :
    Agree pre { e1 with parser := p } { e2 with parser := p } := by
  refine .of_sim (h.setParser p) h.value2 ?_
  show p.state.Marks _
  rw [hs]
  exact Or.inl rfl

theorem Sim.valueHeader (h : Sim pre (some .headerValue) e1 e2) (hs : e1.parser.state = .headerValue)
    (s : HeaderState) : Agree pre (e1.header s) (e2.header s) := by
  unfold Exec.header
  rw [h.parser] at hs ⊢
  exact h.value hs

theorem Sim.headerValueStart (h : Sim pre none e1 e2) (hs : e1.parser.state = .headerValueStart)
    (ch : UInt8) : Agree pre (headerValueStart e1 ch) (headerValueStart e2 ch) := by
  have hm : Sim pre (some .headerValue) e1.markHeaderValue e2.markHeaderValue :=
    (h.mark (j := .headerValue) (Or.inl rfl)).1
  unfold H2ClientProxy.headerValueStart
  rw [h.parser] at hs ⊢
  dsimp only
  by_cases hblank : (ch = ascii ' ' || ch = ascii '\t') = true
  · rw [if_pos hblank, if_pos hblank]
    exact .of_none h (by rw [h.parser, hs]; exact Or.inl rfl)
  · rw [if_neg hblank, if_neg hblank]
    have hv := hm.setParser { e2.parser with state := .headerValue, index := 0 }
    by_cases hcr : ch = cr
    · rw [if_pos hcr, if_pos hcr]
      exact (hm.setParser _).valueEnd (Or.inl rfl)
    · rw [if_neg hcr, if_neg hcr]
      by_cases hlf : ch = lf
      · rw [if_pos hlf, if_pos hlf]
        exact (hm.setParser _).valueEnd (Or.inl rfl)
      · rw [if_neg hlf, if_neg hlf]
        cases e2.parser.headerState with
        | upgrade => exact hm.value rfl
        | contentLength =>
          dsimp only
          split_ifs
          · exact (hm.setParser _).fail _
          · exact hm.value rfl
        | _ => exact hv.valueHeader rfl _

theorem Sim.headerAlmostDone (h : Sim pre none e1 e2) (ch : UInt8) :
    Agree pre (headerAlmostDone e1 ch) (headerAlmostDone e2 ch) := by
  unfold H2ClientProxy.headerAlmostDone
  rw [h.parser]
  dsimp only
  split_ifs
  · exact h.fail _
  · exact .of_none (h.setParser _) (Or.inl rfl)

theorem Sim.headerValueChar (h : Sim pre (some .headerValue) e1 e2) (hs : e1.parser.state = .headerValue)
    (ch : UInt8) : Agree pre (headerValueChar e1 ch) (headerValueChar e2 ch) := by
  -- a byte of the value: nothing is called, and both marks stay
  have hsame : Agree pre e1 e2 := by
    refine .of_sim h h.value2 ?_
    rw [hs]
    exact Or.inl rfl
  unfold H2ClientProxy.headerValueChar
  dsimp only
  by_cases hcr : ch = cr
  · rw [if_pos hcr, if_pos hcr]
    exact (h.goto .headerAlmostDone).valueEnd (Or.inl rfl)
  · rw [if_neg hcr, if_neg hcr]
    by_cases hlf : ch = lf
    · rw [if_pos hlf, if_pos hlf]
      have hd : Sim pre none ((e1.goto .headerAlmostDone).deliver .headerValue)
          ((e2.goto .headerAlmostDone).deliver .headerValue) :=
        (h.goto .headerAlmostDone).deliver (Or.inr rfl)
      exact hd.headerAlmostDone ch
    · rw [if_neg hlf, if_neg hlf]
      have hheader := h.valueHeader hs
      have hvalue : ∀ p : HttpParser, p.state = .headerValue →
          Agree pre { e1 with parser := p } { e2 with parser := p } := fun _ => h.value
      rw [h.parser] at hs ⊢
      cases e2.parser.headerState with
      | general => exact hsame
      | contentLength =>
        dsimp only
        split_ifs
        · exact hsame
        · exact h.fail _
        · cases addDigit e2.parser.contentLength 10 (digit ch) with
          | none => exact h.fail _
          | some t => exact hvalue _ hs
      | matchingTransferEncodingChunked => exact hvalue _ hs
      | matchingConnectionKeepAlive => exact hvalue _ hs
      | matchingConnectionClose => exact hvalue _ hs
      | transferEncodingChunked =>
        dsimp only
        split_ifs
        · exact hheader _
        · exact hsame
      | connectionKeepAlive =>
        dsimp only
        split_ifs
        · exact hheader _
        · exact hsame
      | connectionClose =>
        dsimp only
        split_ifs
        · exact hheader _
        · exact hsame
      | _ => exact hheader _

theorem Sim.headerValueLws (h : Sim pre none e1 e2) (ch : UInt8) :
    Agree pre (headerValueLws e1 ch) (headerValueLws e2 ch) := by
  unfold H2ClientProxy.headerValueLws
  split_ifs
  · exact h.to (Or.inl rfl)
  · exact (h.goto _).headerFieldStart ch

/-! The body. -/

/-- A byte of a body. -/
theorem Sim.bodyByte (h : Sim pre k e1 e2) (hk : k = none ∨ k = some .body) {p : HttpParser}
    (hs : p.state.part = some .body) :
    Agree pre { e1.markBody with parser := p } { e2.markBody with parser := p } := by
  have hm : Sim pre (some .body) e1.markBody e2.markBody ∧ e2.markBody.Holds (some .body) :=
    h.mark (j := .body) hk
  exact .of_sim (hm.1.setParser p) hm.2 (Or.inl hs.symm)

theorem Exec.Holds.growBody {e : Exec} (h : e.Holds (some .body)) (ch : UInt8) :
    { e with bodyMark := e.bodyMark.map (· ++ [ch]) } = e.pass ch := by
  have hne : ∀ j, j ≠ .body → e.markOf j = none := fun _ => h.eq_none_of_ne
  have h1 : e.headerFieldMark = none := hne .headerField (by decide)
  have h2 : e.headerValueMark = none := hne .headerValue (by decide)
  have h3 : e.urlMark = none := hne .url (by decide)
  rw [Exec.pass, h1, h2, h3]
  rfl

theorem Sim.growBody (h : Sim pre (some .body) e1 e2) (h2 : e2.Holds (some .body)) (ch : UInt8) :
    Sim pre (some .body) { e1 with bodyMark := e1.bodyMark.map (· ++ [ch]) }
      { e2 with bodyMark := e2.bodyMark.map (· ++ [ch]) } := by
  rw [h.holds1.growBody ch, h2.growBody ch]
  exact h.pass h2 ch

theorem Sim.bodyIdentity (h : Sim pre k e1 e2) (hk : k = none ∨ k = some .body)
    (hs : e1.parser.state = .bodyIdentity) (ch : UInt8) :
    Agree pre (bodyIdentity e1 ch) (bodyIdentity e2 ch) := by
  have hm : Sim pre (some .body) e1.markBody e2.markBody ∧ e2.markBody.Holds (some .body) :=
    h.mark (j := .body) hk
  unfold H2ClientProxy.bodyIdentity
  rw [h.parser] at hs ⊢
  have hp := hm.1.setParser { e2.parser with contentLength := e2.parser.contentLength - 1 }
  dsimp only
  split_ifs
  · exact ((hp.growBody hm.2 ch).deliver (j := .body) (Or.inr rfl)).messageDone
  · exact h.bodyByte hk (by show e2.parser.state.part = _; rw [hs]; rfl)

theorem Sim.bodyIdentityEof (h : Sim pre k e1 e2) (hk : k = none ∨ k = some .body)
    (hs : e1.parser.state = .bodyIdentityEof) : Agree pre e1.markBody e2.markBody := by
  have hm : Sim pre (some .body) e1.markBody e2.markBody ∧ e2.markBody.Holds (some .body) :=
    h.mark (j := .body) hk
  refine .of_sim hm.1 hm.2 (Or.inl ?_)
  show some Part.body = e1.parser.state.part
  rw [hs]
  rfl

theorem Sim.chunkSizeStart (h : Sim pre none e1 e2) (ch : UInt8) :
    Agree pre (chunkSizeStart e1 ch) (chunkSizeStart e2 ch) := by
  unfold H2ClientProxy.chunkSizeStart
  rw [h.parser]
  cases unhex ch with
  | none => exact h.fail _
  | some v => exact .of_none (h.setParser _) (Or.inl rfl)

theorem Sim.chunkSize (h : Sim pre none e1 e2) (hs : e1.parser.state = .chunkSize) (ch : UInt8) :
    Agree pre (chunkSize e1 ch) (chunkSize e2 ch) := by
  unfold H2ClientProxy.chunkSize
  rw [h.parser] at hs ⊢
  by_cases hcr : ch = cr
  · rw [if_pos hcr, if_pos hcr]
    exact h.to (Or.inl rfl)
  · rw [if_neg hcr, if_neg hcr]
    cases unhex ch with
    | none =>
      dsimp only
      split_ifs
      · exact h.to (Or.inl rfl)
      · exact h.fail _
    | some v =>
      dsimp only
      cases addDigit e2.parser.contentLength 16 v with
      | none => exact h.fail _
      | some t =>
        refine .of_none (h.setParser _) ?_
        show e2.parser.state.Marks none
        rw [hs]
        exact Or.inl rfl

theorem Sim.chunkParameters (h : Sim pre none e1 e2) (hs : e1.parser.state = .chunkParameters)
    (ch : UInt8) : Agree pre (chunkParameters e1 ch) (chunkParameters e2 ch) := by
  unfold H2ClientProxy.chunkParameters
  split_ifs
  · exact h.to (Or.inl rfl)
  · exact .of_none h (by rw [hs]; exact Or.inl rfl)

theorem Sim.chunkSizeAlmostDone (h : Sim pre none e1 e2) (ch : UInt8) :
    Agree pre (chunkSizeAlmostDone e1 ch) (chunkSizeAlmostDone e2 ch) := by
  unfold H2ClientProxy.chunkSizeAlmostDone
  rw [h.parser]
  dsimp only
  split_ifs
  · exact h.fail _
  · exact .of_none (h.setParser _) (Or.inl rfl)
  · exact .of_none (h.setParser _) (Or.inr ⟨rfl, rfl⟩)

theorem Sim.chunkData (h : Sim pre k e1 e2) (hk : k = none ∨ k = some .body) :
    Agree pre (chunkData e1) (chunkData e2) := by
  unfold H2ClientProxy.chunkData
  rw [h.parser]
  refine h.bodyByte hk ?_
  dsimp only
  split_ifs <;> rfl

theorem Sim.chunkDataAlmostDone (h : Sim pre k e1 e2) (hk : k = none ∨ k = some .body) (ch : UInt8) :
    Agree pre (chunkDataAlmostDone e1 ch) (chunkDataAlmostDone e2 ch) := by
  unfold H2ClientProxy.chunkDataAlmostDone
  split_ifs
  · exact h.fail _
  · have hd : Agree pre ((e1.goto .chunkDataDone).deliver .body) ((e2.goto .chunkDataDone).deliver .body) :=
      .deliver (h.goto _) hk (Or.inl rfl)
    exact hd

theorem Sim.chunkDataDone (h : Sim pre none e1 e2) (ch : UInt8) :
    Agree pre (chunkDataDone e1 ch) (chunkDataDone e2 ch) := by
  unfold H2ClientProxy.chunkDataDone
  rw [h.parser]
  split_ifs
  · exact h.fail _
  · exact .of_none (h.setParser _) (Or.inl rfl)

/-! ### The loop -/

/-- The `switch`, state by state. -/
theorem Sim.execState (h : Sim pre k e1 e2) (hk : e1.parser.state.Marks k) (ch : UInt8) :
    Agree pre (execState e1 ch) (execState e2 ch) := by
  -- a state outside the parts has no mark, one inside has the mark of its part
  have hnone : e1.parser.state.part = none → Sim pre none e1 e2 := by
    intro hp
    rcases hk with rfl | ⟨rfl, -⟩
    · rw [hp] at h
      exact h
    · exact h
  have hbody : e1.parser.state.part = some .body → k = none ∨ k = some .body := by
    intro hp
    rcases hk with rfl | ⟨rfl, -⟩
    · exact Or.inr hp
    · exact Or.inl rfl
  have hmarked : ∀ j : Part, j ≠ .body → e1.parser.state.part = some j → Sim pre (some j) e1 e2 := by
    intro j hj hp
    rcases hk with rfl | ⟨-, hb⟩
    · rw [hp] at h
      exact h
    · exact absurd (Option.some.inj (hp.symm.trans hb)) hj
  unfold H2ClientProxy.execState
  rw [← h.parser]
  cases hs : e1.parser.state with
  | dead =>
    rw [hs] at hnone
    have h := hnone rfl
    dsimp only
    split_ifs
    · exact .of_none h (by rw [hs]; exact Or.inl rfl)
    · exact h.fail _
  | startReq => exact (hnone (by rw [hs]; rfl)).startReq hs ch
  | reqMethod => exact (hnone (by rw [hs]; rfl)).reqMethod hs ch
  | url s =>
    refine Sim.reqUrl ?_ hs ch
    by_cases hsp : s = .spacesBeforeUrl
    · rw [hsp] at hs ⊢
      exact hnone (by rw [hs]; rfl)
    · rw [part_url hsp]
      exact hmarked .url (by decide) (by rw [hs]; exact part_url hsp)
  | reqHttpStart => exact (hnone (by rw [hs]; rfl)).reqHttpStart hs ch
  | reqHttpH => exact (hnone (by rw [hs]; rfl)).expectByte ch _ rfl
  | reqHttpHT => exact (hnone (by rw [hs]; rfl)).expectByte ch _ rfl
  | reqHttpHTT => exact (hnone (by rw [hs]; rfl)).expectByte ch _ rfl
  | reqHttpHTTP => exact (hnone (by rw [hs]; rfl)).expectByte ch _ rfl
  | reqFirstHttpMajor => exact (hnone (by rw [hs]; rfl)).reqFirstHttpMajor ch
  | reqHttpMajor => exact (hnone (by rw [hs]; rfl)).reqHttpMajor hs ch
  | reqFirstHttpMinor => exact (hnone (by rw [hs]; rfl)).reqFirstHttpMinor ch
  | reqHttpMinor => exact (hnone (by rw [hs]; rfl)).reqHttpMinor hs ch
  | reqLineAlmostDone => exact (hnone (by rw [hs]; rfl)).reqLineAlmostDone ch
  | headerFieldStart => exact (hnone (by rw [hs]; rfl)).headerFieldStart ch
  | headerField => exact (hmarked .headerField (by decide) (by rw [hs]; rfl)).headerField hs ch
  | headerValueStart => exact (hnone (by rw [hs]; rfl)).headerValueStart hs ch
  | headerValue => exact (hmarked .headerValue (by decide) (by rw [hs]; rfl)).headerValueChar hs ch
  | headerValueLws => exact (hnone (by rw [hs]; rfl)).headerValueLws ch
  | headerAlmostDone => exact (hnone (by rw [hs]; rfl)).headerAlmostDone ch
  | chunkSizeStart => exact (hnone (by rw [hs]; rfl)).chunkSizeStart ch
  | chunkSize => exact (hnone (by rw [hs]; rfl)).chunkSize hs ch
  | chunkParameters => exact (hnone (by rw [hs]; rfl)).chunkParameters hs ch
  | chunkSizeAlmostDone => exact (hnone (by rw [hs]; rfl)).chunkSizeAlmostDone ch
  | headersAlmostDone => exact (hnone (by rw [hs]; rfl)).headersAlmostDone ch
  | chunkData => exact h.chunkData (hbody (by rw [hs]; rfl))
  | chunkDataAlmostDone => exact h.chunkDataAlmostDone (hbody (by rw [hs]; rfl)) ch
  | chunkDataDone => exact (hnone (by rw [hs]; rfl)).chunkDataDone ch
  | bodyIdentity => exact h.bodyIdentity (hbody (by rw [hs]; rfl)) hs ch
  | bodyIdentityEof => exact h.bodyIdentityEof (hbody (by rw [hs]; rfl)) hs

theorem Agree.pass (h : Agree pre e1 e2) (ch : UInt8) : Agree pre (e1.pass ch) (e2.pass ch) where
  parser := h.parser
  sim := fun he => by
    obtain ⟨k, hk, hs, h2⟩ := h.sim he
    exact ⟨k, hk, hs.pass h2 ch, (h2.pass ch).2⟩

theorem Sim.execByte (h : Sim pre k e1 e2) (hk : e1.parser.state.Marks k) (ch : UInt8) :
    Agree pre (execByte e1 ch) (execByte e2 ch) := by
  unfold H2ClientProxy.execByte
  rw [h.parser] at hk ⊢
  dsimp only
  split_ifs
  · exact (h.setParser _).fail _
  · have hread := h.setParser { e2.parser with nread := e2.parser.nread + 1 }
    exact (hread.execState hk ch).pass ch
  · rw [← h.parser] at hk
    exact (h.execState hk ch).pass ch

/-- A piece that is not empty. -/
theorem Sim.execBytes (h : Sim pre k e1 e2) (hk : e1.parser.state.Marks k) {data : Bytes}
    (hne : data ≠ []) : Agree pre (execBytes data e1) (execBytes data e2) := by
  induction data generalizing k e1 e2 with
  | nil => exact absurd rfl hne
  | cons ch rest ih =>
    have hstep : Agree pre (H2ClientProxy.execByte e1 ch) (H2ClientProxy.execByte e2 ch) :=
      h.execByte hk ch
    rw [H2ClientProxy.execBytes, H2ClientProxy.execBytes, ← hstep.parser]
    split_ifs with herr
    · exact hstep
    · by_cases hrest : rest = []
      · rw [hrest]
        exact hstep
      · obtain ⟨k', hk', hs, -⟩ := hstep.sim (Option.not_isSome_iff_eq_none.mp herr)
        exact ih hs hk' hrest

/-- The loop goes on where it has stopped, unless an error has ended it. -/
theorem execBytes_append (a b : Bytes) {e : Exec} (he : e.parser.errno = none) :
    execBytes (a ++ b) e =
      if (execBytes a e).parser.errno.isSome then execBytes a e else execBytes b (execBytes a e) := by
  induction a generalizing e with
  | nil =>
    show execBytes b e = if e.parser.errno.isSome then e else execBytes b e
    rw [he]
    rfl
  | cons ch a ih =>
    rw [List.cons_append, execBytes, execBytes]
    by_cases herr : (execByte e ch).parser.errno.isSome
    · rw [if_pos herr, if_pos herr, if_pos herr]
    · rw [if_neg herr, if_neg herr]
      exact ih (Option.not_isSome_iff_eq_none.mp herr)

/-! ### Pieces -/

theorem start_markOf (p : HttpParser) (j : Part) :
    (Exec.start p).markOf j = if p.state.part = some j ∧ j ≠ .body then some [] else none := by
  cases hs : p.state with
  | url s => cases j <;> cases s <;> simp [Exec.start, Exec.markOf, ParserState.part, hs]
  | _ => cases j <;> simp [Exec.start, Exec.markOf, ParserState.part, hs]

/-- The marks at the start of a piece: those of the state, but none for a body. -/
theorem start_holds (p : HttpParser) :
    ∃ k, p.state.Marks k ∧ k ≠ some .body ∧ (Exec.start p).Holds k := by
  by_cases hb : p.state.part = some .body
  · refine ⟨none, Or.inr ⟨rfl, hb⟩, (Option.some_ne_none _).symm, fun j => ?_⟩
    rw [start_markOf, hb]
    cases j <;> simp
  · refine ⟨p.state.part, Or.inl rfl, hb, fun j => ?_⟩
    rw [start_markOf]
    cases j <;> simp_all

/-- At the end of a piece the data that has been marked is delivered. -/
theorem Exec.Holds.flush {e : Exec} (h : e.Holds k) :
    e.dataHeaderField.dataHeaderValue.dataUrl.dataBody.calls = e.outcome := by
  cases k with
  | none =>
    have hall := h.eq_none
    rw [h.outcome_none]
    obtain ⟨p, m1, m2, m3, m4, calls⟩ := e
    have h1 : m1 = none := hall .headerField
    have h2 : m2 = none := hall .headerValue
    have h3 : m3 = none := hall .url
    have h4 : m4 = none := hall .body
    rw [h1, h2, h3, h4]
    rfl
  | some j =>
    obtain ⟨x, hx⟩ := h.eq_some
    have hne : ∀ j', j' ≠ j → e.markOf j' = none := fun _ => h.eq_none_of_ne
    rw [h.outcome_some hx]
    obtain ⟨p, m1, m2, m3, m4, calls⟩ := e
    have h1 := hne .headerField
    have h2 := hne .headerValue
    have h3 := hne .url
    have h4 := hne .body
    cases j <;> simp_all [Exec.markOf, Exec.dataHeaderField, Exec.dataHeaderValue, Exec.dataUrl,
      Exec.dataBody, Exec.notify, Part.call]

theorem flush_state (e : Exec) :
    e.dataHeaderField.dataHeaderValue.dataUrl.dataBody.parser = e.parser := by
  have h1 : e.dataHeaderField.parser = e.parser := Sim.deliver_state e .headerField
  have h2 : e.dataHeaderField.dataHeaderValue.parser = e.dataHeaderField.parser :=
    Sim.deliver_state _ .headerValue
  have h3 : e.dataHeaderField.dataHeaderValue.dataUrl.parser = e.dataHeaderField.dataHeaderValue.parser :=
    Sim.deliver_state _ .url
  exact (Sim.deliver_state _ .body).trans (h3.trans (h2.trans h1))

/-- A piece that ends without an error. -/
theorem httpParserExecute_of_none {p : HttpParser} {data : Bytes} (hp : p.errno = none)
    (hne : data ≠ []) (he : (execBytes data (.start p)).parser.errno = none) :
    httpParserExecute p data =
      ((execBytes data (.start p)).parser, (execBytes data (.start p)).outcome) := by
  obtain ⟨k, hk, -, hholds⟩ := start_holds p
  have hself : Sim [] k (.start p) (.start p) := ⟨rfl, hholds, Or.inl hholds, rfl⟩
  obtain ⟨k', -, hs, -⟩ := (hself.execBytes hk hne).sim he
  have hempty : data.isEmpty = false := by
    rw [List.isEmpty_eq_false_iff]
    exact hne
  rw [httpParserExecute, hp, hempty]
  simp only [Option.isSome_none, Bool.false_eq_true, if_false, he]
  rw [hs.holds1.flush, flush_state]

/-- A piece that ends with an error: nothing more is delivered. -/
theorem httpParserExecute_of_some {p : HttpParser} {data : Bytes} (hp : p.errno = none)
    (hne : data ≠ []) (he : (execBytes data (.start p)).parser.errno ≠ none) :
    httpParserExecute p data =
      ((execBytes data (.start p)).parser, (execBytes data (.start p)).calls) := by
  have hempty : data.isEmpty = false := by
    rw [List.isEmpty_eq_false_iff]
    exact hne
  rw [httpParserExecute, hp, hempty]
  simp only [Option.isSome_none, Bool.false_eq_true, if_false, Option.isSome_iff_ne_none.mpr he, if_true]

/-- After an error the parser does nothing. -/
theorem httpParserExecute_errno {p : HttpParser} (hp : p.errno ≠ none) (data : Bytes) :
    httpParserExecute p data = (p, []) := by
  rw [httpParserExecute, if_pos (Option.isSome_iff_ne_none.mpr hp)]

/-- The run that is cut at the end of a piece agrees with the one that goes on. -/
theorem Sim.restart {e : Exec} (h : e.Holds k) (hk : e.parser.state.Marks k) :
    Sim e.outcome k e (.start e.parser) := by
  obtain ⟨k', hk', hb, hstart⟩ := start_holds e.parser
  have hkk : k' = k ∨ (k = some .body ∧ k' = none) := by
    rcases hk with rfl | ⟨rfl, hp⟩
    · rcases hk' with rfl | ⟨rfl, hp⟩
      · exact Or.inl rfl
      · exact Or.inr ⟨hp, rfl⟩
    · rcases hk' with rfl | ⟨rfl, -⟩
      · exact absurd hp hb
      · exact Or.inl rfl
  have hcalls : (Exec.start e.parser).calls = [] := rfl
  refine ⟨rfl, h, ?_, ?_⟩
  · rcases hkk with rfl | ⟨rfl, rfl⟩
    · exact Or.inl hstart
    · exact Or.inr ⟨rfl, hstart⟩
  · cases k' with
    | none => rw [hstart.outcome_none, hcalls, List.append_nil]
    | some j =>
      -- the data that is delivered at the end of the piece goes on with nothing
      have hkj : k = some j := (hkk.resolve_right fun hb => absurd hb.2 (Option.some_ne_none j)).symm
      rw [hkj] at h
      obtain ⟨x, hx⟩ := h.eq_some
      obtain ⟨y, hy⟩ := hstart.eq_some
      have hnil : y = [] := by
        rw [start_markOf] at hy
        split_ifs at hy
        exact (Option.some.inj hy).symm
      rw [h.outcome_some hx, hstart.outcome_some hy, hcalls, List.nil_append, List.append_assoc, hnil]
      have hm : mergeCalls (j.call x) (j.call []) = some (j.call x) := by
        rw [mergeCalls_call, List.append_nil]
      exact (coalesce_merge mergeable_mergeCalls hm e.calls []).symm

/-- Two pieces, or one. -/
theorem httpParserExecute_append (p : HttpParser) {a b : Bytes} (ha : a ≠ []) (hb : b ≠ []) :
    (httpParserExecute p (a ++ b)).1 = (httpParserExecute (httpParserExecute p a).1 b).1 ∧
      ((httpParserExecute p (a ++ b)).1.errno = none →
        coalesce mergeCalls (httpParserExecute p (a ++ b)).2 = coalesce mergeCalls
          ((httpParserExecute p a).2 ++ (httpParserExecute (httpParserExecute p a).1 b).2)) := by
  have hab : a ++ b ≠ [] := List.append_ne_nil_of_left_ne_nil ha b
  by_cases hp : p.errno = none
  · have happ : execBytes (a ++ b) (.start p) = _ := execBytes_append a b hp
    by_cases he : (execBytes a (.start p)).parser.errno = none
    · -- the first piece ends without an error: the second one takes up where it ended
      rw [he, if_neg (by simp)] at happ
      obtain ⟨k0, hk0, -, hstart⟩ := start_holds p
      have hself : Sim [] k0 (.start p) (.start p) := ⟨rfl, hstart, Or.inl hstart, rfl⟩
      obtain ⟨k, hk, hs, -⟩ := (hself.execBytes hk0 ha).sim he
      have hagree : Agree (execBytes a (.start p)).outcome (execBytes b (execBytes a (.start p)))
          (execBytes b (.start (execBytes a (.start p)).parser)) :=
        (Sim.restart hs.holds1 hk).execBytes hk hb
      rw [httpParserExecute_of_none hp ha he]
      dsimp only
      by_cases heb : (execBytes b (execBytes a (.start p))).parser.errno = none
      · have heb2 : (execBytes b (.start (execBytes a (.start p)).parser)).parser.errno = none := by
          rw [← hagree.parser]
          exact heb
        rw [httpParserExecute_of_none hp hab (by rw [happ]; exact heb),
          httpParserExecute_of_none he hb heb2, happ]
        refine ⟨hagree.parser, fun _ => ?_⟩
        obtain ⟨k', -, hs', -⟩ := hagree.sim heb
        exact hs'.outcome
      · have heb2 : (execBytes b (.start (execBytes a (.start p)).parser)).parser.errno ≠ none := by
          rw [← hagree.parser]
          exact heb
        rw [httpParserExecute_of_some hp hab (by rw [happ]; exact heb),
          httpParserExecute_of_some he hb heb2, happ]
        exact ⟨hagree.parser, fun h => absurd h heb⟩
    · -- an error in the first piece
      rw [if_pos (Option.isSome_iff_ne_none.mpr he)] at happ
      rw [httpParserExecute_of_some hp hab (by rw [happ]; exact he), httpParserExecute_of_some hp ha he,
        happ, httpParserExecute_errno he]
      exact ⟨rfl, fun h => absurd h he⟩
  · rw [httpParserExecute_errno hp, httpParserExecute_errno hp, httpParserExecute_errno hp]
    exact ⟨rfl, fun _ => rfl⟩

/-- The parser is given the pieces one after the other. -/
def executePieces (p : HttpParser) : List Bytes → HttpParser × List Callback
  | [] => (p, [])
  | data :: pieces =>
    let out := httpParserExecute p data
    let rest := executePieces out.1 pieces
    (rest.1, out.2 ++ rest.2)

/-- The pieces do what the whole input does, up to the cuts in the data that is delivered. -/
theorem executePieces_flatten (p : HttpParser) (pieces : List Bytes) (hne : ∀ data ∈ pieces, data ≠ [])
    (hp : pieces ≠ []) :
    (executePieces p pieces).1 = (httpParserExecute p pieces.flatten).1 ∧
      ((httpParserExecute p pieces.flatten).1.errno = none →
        coalesce mergeCalls (executePieces p pieces).2 =
          coalesce mergeCalls (httpParserExecute p pieces.flatten).2) := by
  induction pieces generalizing p with
  | nil => exact absurd rfl hp
  | cons a pieces ih =>
    have ha : a ≠ [] := hne a List.mem_cons_self
    have hne' : ∀ data ∈ pieces, data ≠ [] := fun data h => hne data (List.mem_cons_of_mem _ h)
    rw [executePieces, List.flatten_cons]
    by_cases hrest : pieces = []
    · rw [hrest, executePieces, List.flatten_nil, List.append_nil, List.append_nil]
      exact ⟨rfl, fun _ => rfl⟩
    · obtain ⟨data, hdata⟩ := List.exists_mem_of_ne_nil pieces hrest
      have hflat : pieces.flatten ≠ [] := fun hnil =>
        hne' data hdata (List.flatten_eq_nil_iff.mp hnil data hdata)
      obtain ⟨h1, h2⟩ := httpParserExecute_append p ha hflat
      obtain ⟨ih1, ih2⟩ := ih (httpParserExecute p a).1 hne' hrest
      refine ⟨ih1.trans h1.symm, fun he => ?_⟩
      rw [h2 he]
      exact coalesce_append_right (ih2 (by rw [← h1]; exact he)) _

/-- A request that is cut in a name, in a value and in its body. -/
def cutRequest : List Bytes :=
  [bytes "POST /a HTTP/1.1\r\nContent-Le", bytes "ngth: 3\r\nA: b", bytes "c\r\n\r\nx", bytes "yz"]

/-- **However the input is cut**, the parser ends in the same state, with the same error if there is one;
and if there is none, it has made the same calls, up to the cuts in the data that it delivers. -/
theorem executePieces_congr (p : HttpParser) {pieces pieces' : List Bytes}
    (hne : ∀ data ∈ pieces, data ≠ []) (hne' : ∀ data ∈ pieces', data ≠ [])
    (hflat : pieces.flatten = pieces'.flatten) (hp : pieces ≠ []) (hp' : pieces' ≠ []) :
    (executePieces p pieces).1 = (executePieces p pieces').1 ∧
      ((executePieces p pieces).1.errno = none →
        coalesce mergeCalls (executePieces p pieces).2 =
          coalesce mergeCalls (executePieces p pieces').2) := by
  obtain ⟨h1, h2⟩ := executePieces_flatten p pieces hne hp
  obtain ⟨h1', h2'⟩ := executePieces_flatten p pieces' hne' hp'
  rw [← hflat] at h1' h2'
  refine ⟨h1.trans h1'.symm, fun he => ?_⟩
  rw [h1] at he
  exact (h2 he).trans (h2' he).symm

/-- A request that is cut within its words is parsed as if it came in one piece. -/
theorem executePieces_congr_cut :
    (executePieces .init cutRequest).1 = (executePieces .init [cutRequest.flatten]).1 ∧
      coalesce mergeCalls (executePieces .init cutRequest).2 =
        coalesce mergeCalls (executePieces .init [cutRequest.flatten]).2 := by
  have hone : cutRequest.flatten = [cutRequest.flatten].flatten := by decide
  obtain ⟨h1, h2⟩ :=
    executePieces_congr .init (by decide) (by decide) hone (by decide) (by decide)
  exact ⟨h1, h2 (by decide +kernel)⟩

end H2ClientProxy
