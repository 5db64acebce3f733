import H2ClientProxy.HttpParser.Url
import Mathlib.Tactic.Common
import Mathlib.Data.Fin.Basic

/-!
# Where the parts of a url lie

Whatever the text, and also where the 16-bit offsets wrap, each part that `http_parser_parse_url_`
reports lies inside the text, and the part of the host does not depend on what was in the structure
before.

* `parseUrl_inside`, `length_text`: the reported spans lie in the text.
* `parseUrl_host_eq`: the host does not depend on the initial structure.
-/

namespace H2ClientProxy

variable {buf : Bytes} {u u' : HttpParserUrl} {p : ℕ}

theorem u16_le (n : ℕ) : u16 n ≤ n := Nat.mod_le _ _

theorem u16_of_lt {n : ℕ} (h : n < 2 ^ 16) : u16 n = n := Nat.mod_eq_of_lt h

/-! ### The operations on the structure -/

section Operations

variable (u : HttpParserUrl) (f : UrlField) (p : ℕ) (g : UrlField)

@[simp]
theorem start_fieldSet :
    (u.start f p).fieldSet g = if g = f then true else u.fieldSet g := Function.update_apply ..

@[simp]
theorem start_fieldData :
    (u.start f p).fieldData g = if g = f then ⟨u16 p, 1⟩ else u.fieldData g :=
  Function.update_apply ..

@[simp]
theorem grow_fieldSet : (u.grow f).fieldSet = u.fieldSet := rfl

@[simp]
theorem grow_fieldData : (u.grow f).fieldData g =
    if g = f then ⟨(u.fieldData f).off, u16 ((u.fieldData f).len + 1)⟩ else u.fieldData g :=
  Function.update_apply ..

@[simp]
theorem moveHost_fieldSet : (u.moveHost p).fieldSet = u.fieldSet := rfl

@[simp]
theorem moveHost_fieldData : (u.moveHost p).fieldData g =
    if g = .host then ⟨u16 p, (u.fieldData .host).len⟩ else u.fieldData g :=
  Function.update_apply ..

end Operations

/-! ### Spans inside the text -/

/-- The span `f` ends at `p` at the latest. -/
def HttpParserUrl.EndsBy (u : HttpParserUrl) (p : ℕ) (f : UrlField) : Prop :=
  (u.fieldData f).off + (u.fieldData f).len ≤ p

/-- All the reported spans end at `p` at the latest. -/
def HttpParserUrl.Inside (u : HttpParserUrl) (p : ℕ) : Prop :=
  ∀ f, u.fieldSet f = true → u.EndsBy p f

theorem HttpParserUrl.Inside.mono {q : ℕ} (h : u.Inside p) (hle : p ≤ q) : u.Inside q :=
  fun f hf => (h f hf).trans hle

theorem endsBy_of_eq {f : UrlField} (h : u.EndsBy p f) (he : u'.fieldData f = u.fieldData f) :
    u'.EndsBy p f := by
  unfold HttpParserUrl.EndsBy
  rw [he]
  exact h

theorem start_endsBy (u : HttpParserUrl) (p : ℕ) (f : UrlField) :
    (u.start f p).EndsBy (p + 1) f := by
  rw [HttpParserUrl.EndsBy, start_fieldData, if_pos rfl]
  exact Nat.add_le_add_right (u16_le p) 1

theorem grow_endsBy {f : UrlField} (h : u.EndsBy p f) : (u.grow f).EndsBy (p + 1) f := by
  have hlen := u16_le ((u.fieldData f).len + 1)
  have hle : (u.fieldData f).off + (u.fieldData f).len ≤ p := h
  rw [HttpParserUrl.EndsBy, grow_fieldData, if_pos rfl]
  show (u.fieldData f).off + u16 ((u.fieldData f).len + 1) ≤ p + 1
  omega

/-- A span that starts at `p`. -/
theorem HttpParserUrl.Inside.start {q : ℕ} (h : u.Inside q) (hp : p + 1 ≤ q) (f : UrlField) :
    (u.start f p).Inside q := by
  intro g hg
  by_cases hgf : g = f
  · rw [hgf]
    exact (start_endsBy u p f).trans hp
  · rw [start_fieldSet, if_neg hgf] at hg
    exact endsBy_of_eq (h g hg) (by rw [start_fieldData, if_neg hgf])

/-- A span that grows. -/
theorem HttpParserUrl.Inside.grow {q : ℕ} (h : u.Inside q) (hp : p + 1 ≤ q) {f : UrlField}
    (hf : u.EndsBy p f) : (u.grow f).Inside q := by
  intro g hg
  by_cases hgf : g = f
  · rw [hgf]
    exact (grow_endsBy hf).trans hp
  · exact endsBy_of_eq (h g hg) (by rw [grow_fieldData, if_neg hgf])

/-- What the loop of `http_parser_parse_url_` keeps.  The entry of the host is read even if there is no
host. -/
structure UrlScan.Inside (scan : UrlScan) (p : ℕ) : Prop where
  spans : scan.u.Inside p
  host : scan.u.EndsBy p .host
  old : ∀ f, scan.oldUf = some f → scan.u.fieldSet f = true

theorem UrlScan.Inside.next {scan : UrlScan} (h : scan.Inside p) (s : UrlState) :
    (scan.next s p).Inside (p + 1) := by
  have hspans := h.spans.mono (Nat.le_succ p)
  have hhost : scan.u.EndsBy (p + 1) .host := Nat.le_succ_of_le h.host
  rw [UrlScan.next]
  cases hs : s.field with
  | none => exact ⟨hspans, hhost, h.old⟩
  | some uf =>
    by_cases hold : scan.oldUf = some uf
    · simp only [hold, if_true]
      have hset := h.old uf hold
      refine ⟨hspans.grow le_rfl (h.spans uf hset), ?_, ?_⟩
      · by_cases huf : uf = .host
        · rw [huf]
          exact grow_endsBy h.host
        · exact endsBy_of_eq hhost (by rw [grow_fieldData, if_neg (Ne.symm huf)])
      · rintro f ⟨⟩
        exact hset
    · simp only [hold, if_false]
      refine ⟨hspans.start le_rfl uf, ?_, ?_⟩
      · by_cases huf : uf = .host
        · rw [huf]
          exact start_endsBy scan.u p _
        · exact endsBy_of_eq hhost (by rw [start_fieldData, if_neg (Ne.symm huf)])
      · rintro f ⟨⟩
        rw [start_fieldSet, if_pos rfl]

/-- The structure when the loop ends, whichever way it ends. -/
def scannedUrl : Except HttpParserUrl UrlScan → HttpParserUrl
  | .ok scan => scan.u
  | .error u => u

theorem scanUrl_inside {scan : UrlScan} (h : scan.Inside p) (rest : Bytes) :
    (scannedUrl (scanUrl rest p scan)).Inside (p + rest.length) ∧
      (scannedUrl (scanUrl rest p scan)).EndsBy (p + rest.length) .host := by
  induction rest generalizing p scan with
  | nil => exact ⟨h.spans, h.host⟩
  | cons ch rest ih =>
    rw [scanUrl]
    split_ifs with hdead
    · exact ⟨h.spans.mono (Nat.le_add_right p _), h.host.trans (Nat.le_add_right p _)⟩
    · rw [List.length_cons, Nat.add_comm rest.length 1, ← Nat.add_assoc]
      exact ih (h.next (parseUrlChar scan.s ch))

/-! ### The server part -/

/-- The states in which the host has not been reached. -/
def HostState.beforeHost : HostState → Bool
  | .userinfoStart | .userinfo | .hostStart | .hostV6Start => true
  | _ => false

theorem beforeHost_of_step {s : HostState} {ch : UInt8}
    (h : (httpParseHostChar s ch).beforeHost = true) : s.beforeHost = true := by
  cases s <;> grind [httpParseHostChar, HostState.beforeHost]

/-- The host is entered from a state before it. -/
theorem beforeHost_of_host {s : HostState} {ch : UInt8} (h : httpParseHostChar s ch = .host)
    (hne : s ≠ .host) : s.beforeHost = true := by
  cases s <;> grind [httpParseHostChar, HostState.beforeHost]

theorem beforeHost_of_hostV6 {s : HostState} {ch : UInt8} (h : httpParseHostChar s ch = .hostV6)
    (hne : s ≠ .hostV6) : s.beforeHost = true := by
  cases s <;> grind [httpParseHostChar, HostState.beforeHost]

/-- What the loop of `http_parse_host_` keeps: all spans end by `q`, those that can grow end here, and
nothing of the host is counted before the host. -/
structure HostInside (u : HttpParserUrl) (s : HostState) (p q : ℕ) : Prop where
  spans : u.Inside q
  host : u.EndsBy p .host
  empty : s.beforeHost = true → (u.fieldData .host).len = 0
  port : s = .hostPort → u.EndsBy p .port
  userinfo : s = .userinfo → u.EndsBy p .userinfo

/-- A byte of the host. -/
theorem HostInside.host_grow {s newS : HostState} {q : ℕ} (h : HostInside u s p q) (hp : p + 1 ≤ q)
    (hfirst : s ≠ newS → s.beforeHost = true) (hnew : newS.beforeHost = false)
    (hport : newS ≠ .hostPort) (huser : newS ≠ .userinfo) :
    HostInside ((if s = newS then u else u.moveHost p).grow .host) newS (p + 1) q := by
  have hmoved : (if s = newS then u else u.moveHost p).EndsBy p .host := by
    split_ifs with hs
    · exact h.host
    · have hempty := h.empty (hfirst hs)
      have hle := u16_le p
      rw [HttpParserUrl.EndsBy, moveHost_fieldData, if_pos rfl, hempty]
      exact hle
  have hspans : (if s = newS then u else u.moveHost p).Inside q := by
    intro f hf
    by_cases hfh : f = .host
    · rw [hfh]
      exact hmoved.trans (Nat.le_of_succ_le hp)
    · split_ifs at hf ⊢ with hs
      · exact h.spans f hf
      · exact endsBy_of_eq (h.spans f hf) (by rw [moveHost_fieldData, if_neg hfh])
  refine ⟨hspans.grow hp hmoved, grow_endsBy hmoved, ?_, ?_, ?_⟩
  · intro hbefore
    rw [hnew] at hbefore
    exact absurd hbefore Bool.false_ne_true
  · exact fun he => absurd he hport
  · exact fun he => absurd he huser

/-- A byte of the port or of the user information. -/
theorem HostInside.part_grow {s newS : HostState} {f : UrlField} {q : ℕ} (h : HostInside u s p q)
    (hp : p + 1 ≤ q) (hends : s = newS → u.EndsBy p f) (hf : f ≠ .host)
    (hbefore : newS.beforeHost = true → s.beforeHost = true)
    (hport : newS = .hostPort → f = .port) (huser : newS = .userinfo → f = .userinfo) :
    HostInside (if s = newS then u.grow f else u.start f p) newS (p + 1) q := by
  split_ifs with hs
  · have hkeep : (u.grow f).fieldData .host = u.fieldData .host := by
      rw [grow_fieldData, if_neg hf.symm]
    have hself : (u.grow f).EndsBy (p + 1) f := grow_endsBy (hends hs)
    refine ⟨h.spans.grow hp (hends hs), ?_, ?_, ?_, ?_⟩
    · exact endsBy_of_eq (Nat.le_succ_of_le h.host) hkeep
    · intro hb
      rw [hkeep]
      exact h.empty (hbefore hb)
    · exact fun he => hport he ▸ hself
    · exact fun he => huser he ▸ hself
  · have hkeep : (u.start f p).fieldData .host = u.fieldData .host := by
      rw [start_fieldData, if_neg hf.symm]
    have hself : (u.start f p).EndsBy (p + 1) f := start_endsBy u p f
    refine ⟨h.spans.start hp f, ?_, ?_, ?_, ?_⟩
    · exact endsBy_of_eq (Nat.le_succ_of_le h.host) hkeep
    · intro hb
      rw [hkeep]
      exact h.empty (hbefore hb)
    · exact fun he => hport he ▸ hself
    · exact fun he => huser he ▸ hself

theorem HostInside.record {s : HostState} {q : ℕ} (h : HostInside u s p q) (hp : p + 1 ≤ q)
    (ch : UInt8) :
    HostInside (recordHost u s (httpParseHostChar s ch) p) (httpParseHostChar s ch) (p + 1) q := by
  have hbefore := @beforeHost_of_step s ch
  cases hnew : httpParseHostChar s ch with
  | host =>
    exact h.host_grow hp (fun hne => beforeHost_of_host hnew hne) rfl (by simp) (by simp)
  | hostV6 =>
    exact h.host_grow hp (fun hne => beforeHost_of_hostV6 hnew hne) rfl (by simp) (by simp)
  | hostPort =>
    exact h.part_grow hp (fun hs => h.port hs) (by simp) (by simp [HostState.beforeHost])
      (fun _ => rfl) (by simp)
  | userinfo =>
    rw [hnew] at hbefore
    exact h.part_grow hp (fun hs => h.userinfo hs) (by simp) hbefore (by simp) fun _ => rfl
  | _ =>
    rw [hnew] at hbefore
    refine ⟨h.spans, Nat.le_succ_of_le h.host, ?_, by simp, by simp⟩
    exact fun hb => h.empty (hbefore hb)

theorem hostLoop_inside {s : HostState} {q : ℕ} (h : HostInside u s p q) {rest : Bytes}
    (hq : p + rest.length ≤ q) : (hostLoop rest p s u).2.Inside q := by
  induction rest generalizing p s u with
  | nil => exact h.spans
  | cons ch rest ih =>
    rw [List.length_cons] at hq
    rw [hostLoop]
    split_ifs with hdead
    · exact h.spans
    · exact ih (h.record (by omega) ch) (by omega)

theorem httpParseHost_inside (h : u.Inside buf.length) (hhost : u.EndsBy buf.length .host)
    (foundAt : Bool) : (httpParseHost buf u foundAt).2.Inside buf.length := by
  have hle : (u.fieldData .host).off + (u.fieldData .host).len ≤ buf.length := hhost
  apply hostLoop_inside
  · constructor
    · intro f hf
      by_cases hfh : f = .host
      · unfold HttpParserUrl.EndsBy
        simp only [hfh, Function.update_self]
        omega
      · unfold HttpParserUrl.EndsBy
        simp only [Function.update_of_ne hfh]
        exact h f hf
    · unfold HttpParserUrl.EndsBy
      simp only [Function.update_self]
      omega
    · intro _
      simp only [Function.update_self]
    · cases foundAt <;> simp
    · cases foundAt <;> simp
  · rw [List.length_take, List.length_drop]
    omega

/-- The last checks change no span. -/
theorem finishUrl_spans (buf : Bytes) (isConnect : Bool) (hosted : Bool × HttpParserUrl) :
    (finishUrl buf isConnect hosted).2.fieldSet = hosted.2.fieldSet ∧
      (finishUrl buf isConnect hosted).2.fieldData = hosted.2.fieldData := by
  unfold finishUrl
  dsimp only
  split_ifs <;> exact ⟨rfl, rfl⟩

theorem finishUrl_inside {hosted : Bool × HttpParserUrl} (h : hosted.2.Inside buf.length)
    (isConnect : Bool) : (finishUrl buf isConnect hosted).2.Inside buf.length := by
  obtain ⟨hset, hdata⟩ := finishUrl_spans buf isConnect hosted
  intro f hf
  rw [hset] at hf
  exact endsBy_of_eq (h f hf) (by rw [hdata])

/-- The spans that `http_parser_parse_url_` reports lie in the text. -/
theorem parseUrl_inside (buf : Bytes) (isConnect : Bool) :
    (httpParserParseUrl .zero buf isConnect).2.Inside buf.length := by
  have hinit : (UrlScan.init .zero isConnect).Inside 0 := by
    refine ⟨?_, le_rfl, ?_⟩
    · intro f hf
      exact absurd hf Bool.false_ne_true
    · rintro f ⟨⟩
  have hscan := scanUrl_inside hinit buf
  rw [Nat.zero_add] at hscan
  unfold httpParserParseUrl
  cases hres : scanUrl buf 0 (.init .zero isConnect) with
  | error u =>
    rw [hres] at hscan
    exact hscan.1
  | ok scan =>
    rw [hres] at hscan
    apply finishUrl_inside
    unfold parseHostPart
    split_ifs
    · exact httpParseHost_inside hscan.1 hscan.2 _
    · exact hscan.1

/-- The text of a reported span has the length that is reported. -/
theorem length_text (h : u.Inside buf.length) {f : UrlField} (hf : u.fieldSet f = true) :
    (u.text buf f).length = (u.fieldData f).len := by
  have hle : (u.fieldData f).off + (u.fieldData f).len ≤ buf.length := h f hf
  rw [HttpParserUrl.text, List.length_take, List.length_drop]
  omega

/-! ### What was in the structure before -/

/-- The two structures report the same parts, and the same host. -/
structure SameHost (u u' : HttpParserUrl) : Prop where
  fieldSet : u'.fieldSet = u.fieldSet
  host : u.fieldSet .host = true → u'.fieldData .host = u.fieldData .host

theorem SameHost.start (h : SameHost u u') (f : UrlField) (p : ℕ) :
    SameHost (u.start f p) (u'.start f p) := by
  constructor
  · funext g
    rw [start_fieldSet, start_fieldSet, h.fieldSet]
  · rw [start_fieldSet, start_fieldData, start_fieldData]
    split_ifs with hf
    · exact fun _ => rfl
    · exact h.host

/-- The host of a structure one of whose spans grows depends on the host before. -/
theorem grow_host (h : u'.fieldData .host = u.fieldData .host) (f : UrlField) :
    (u'.grow f).fieldData .host = (u.grow f).fieldData .host := by
  rw [grow_fieldData, grow_fieldData]
  split_ifs with hf
  · rw [← hf, h]
  · exact h

/-- Two scans in the same state with the same host. -/
structure SameScan (scan scan' : UrlScan) : Prop where
  s : scan'.s = scan.s
  oldUf : scan'.oldUf = scan.oldUf
  foundAt : scan'.foundAt = scan.foundAt
  u : SameHost scan.u scan'.u
  old : scan.oldUf = some .host → scan.u.fieldSet .host = true

theorem SameScan.next {scan scan' : UrlScan} (h : SameScan scan scan') (s : UrlState) (p : ℕ) :
    SameScan (scan.next s p) (scan'.next s p) := by
  rw [UrlScan.next, UrlScan.next]
  cases hs : s.field with
  | none => exact ⟨rfl, h.oldUf, h.foundAt, h.u, h.old⟩
  | some uf =>
    simp only [h.oldUf, h.foundAt]
    by_cases hold : scan.oldUf = some uf
    · simp only [hold, if_true]
      refine ⟨rfl, rfl, rfl, ⟨h.u.fieldSet, ?_⟩, ?_⟩
      · intro hset
        exact grow_host (h.u.host hset) uf
      · rintro ⟨⟩
        exact h.old hold
    · simp only [hold, if_false]
      refine ⟨rfl, rfl, rfl, h.u.start uf p, ?_⟩
      rintro ⟨⟩
      rw [start_fieldSet, if_pos rfl]

/-- The loop ends in the same way for both. -/
theorem SameScan.scanUrl {scan scan' : UrlScan} (h : SameScan scan scan') (rest : Bytes) (p : ℕ) :
    (∃ end_ end_', H2ClientProxy.scanUrl rest p scan = .ok end_ ∧
      H2ClientProxy.scanUrl rest p scan' = .ok end_' ∧ SameScan end_ end_') ∨
    ∃ u u', H2ClientProxy.scanUrl rest p scan = .error u ∧
      H2ClientProxy.scanUrl rest p scan' = .error u' ∧ SameHost u u' := by
  induction rest generalizing p scan scan' with
  | nil => exact Or.inl ⟨scan, scan', rfl, rfl, h⟩
  | cons ch rest ih =>
    simp only [H2ClientProxy.scanUrl, h.s]
    split_ifs with hdead
    · exact Or.inr ⟨_, _, rfl, rfl, h.u⟩
    · exact ih (h.next _ p) (p + 1)

/-- `http_parse_host_` sets no bit for the host. -/
theorem recordHost_fieldSet (u : HttpParserUrl) (s newS : HostState) (p : ℕ) :
    (recordHost u s newS p).fieldSet .host = u.fieldSet .host := by
  unfold recordHost
  split
  · split_ifs <;> rfl
  · split_ifs <;> rfl
  · split_ifs <;> rfl
  · split_ifs <;> rfl
  · rfl

theorem recordHost_host (h : u'.fieldData .host = u.fieldData .host) (s newS : HostState) (p : ℕ) :
    (recordHost u' s newS p).fieldData .host = (recordHost u s newS p).fieldData .host := by
  have hmove : (u'.moveHost p).fieldData .host = (u.moveHost p).fieldData .host := by
    rw [moveHost_fieldData, moveHost_fieldData, h]
  unfold recordHost
  split
  · split_ifs
    · exact grow_host h _
    · exact grow_host hmove _
  · split_ifs
    · exact grow_host h _
    · exact grow_host hmove _
  · split_ifs
    · exact grow_host h _
    · exact h
  · split_ifs
    · exact grow_host h _
    · exact h
  · exact h

theorem hostLoop_fieldSet (rest : Bytes) (p : ℕ) (s : HostState) (u : HttpParserUrl) :
    (hostLoop rest p s u).2.fieldSet .host = u.fieldSet .host := by
  induction rest generalizing p s u with
  | nil => rfl
  | cons ch rest ih =>
    rw [hostLoop]
    split_ifs
    · rfl
    · rw [ih, recordHost_fieldSet]

/-- The host that `http_parse_host_` leaves depends on the host it finds. -/
theorem hostLoop_host (h : u'.fieldData .host = u.fieldData .host) (rest : Bytes) (p : ℕ)
    (s : HostState) :
    (hostLoop rest p s u').2.fieldData .host = (hostLoop rest p s u).2.fieldData .host := by
  induction rest generalizing p s u u' with
  | nil => exact h
  | cons ch rest ih =>
    rw [hostLoop, hostLoop]
    split_ifs
    · exact h
    · exact ih (recordHost_host h _ _ _) ..

theorem parseHostPart_fieldSet (buf : Bytes) (scan : UrlScan) :
    (parseHostPart buf scan).2.fieldSet .host = scan.u.fieldSet .host := by
  unfold parseHostPart
  split_ifs
  · exact hostLoop_fieldSet ..
  · rfl

/-- Whatever was in the structure, the same host is reported. -/
theorem parseUrl_host_eq (u0 : HttpParserUrl) (buf : Bytes) (isConnect : Bool) :
    (httpParserParseUrl u0 buf isConnect).2.fieldSet .host =
        (httpParserParseUrl .zero buf isConnect).2.fieldSet .host ∧
      ((httpParserParseUrl .zero buf isConnect).2.fieldSet .host = true →
        (httpParserParseUrl u0 buf isConnect).2.fieldData .host =
          (httpParserParseUrl .zero buf isConnect).2.fieldData .host) := by
  have hinit : SameScan (.init .zero isConnect) (.init u0 isConnect) := by
    refine ⟨rfl, rfl, rfl, ⟨rfl, ?_⟩, ?_⟩
    · intro hset
      exact absurd hset Bool.false_ne_true
    · rintro ⟨⟩
  unfold httpParserParseUrl
  obtain ⟨scan, scan', hscan, hscan', h⟩ | ⟨u, u', hscan, hscan', h⟩ := hinit.scanUrl buf 0
  · rw [hscan, hscan']
    dsimp only
    rw [(finishUrl_spans ..).1, (finishUrl_spans ..).1, (finishUrl_spans ..).2,
      (finishUrl_spans ..).2, parseHostPart_fieldSet, parseHostPart_fieldSet, h.u.fieldSet]
    refine ⟨rfl, ?_⟩
    intro hset
    have hdata := h.u.host hset
    unfold parseHostPart httpParseHost
    simp only [h.u.fieldSet, hset, Bool.or_true, if_true, hdata, h.foundAt]
    apply hostLoop_host
    simp only [Function.update_self]
  · rw [hscan, hscan']
    exact ⟨congrFun h.fieldSet _, h.host⟩

end H2ClientProxy
