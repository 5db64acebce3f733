import H2ClientProxy.Equiv.UrlScan

/-!
# Host and port of a url

The server part as `http_parse_host_` reads it, in a text shorter than 2¹⁶ bytes.

* `hostLoop_parts`: what an accepted server part consists of.
* `hostLoop_compose`: a host and a port that are put together are taken apart again.
* `hostLoop_colons`: a host with a colon in it is not, without its brackets.
* `strtoul_digits`: the value of the port.
-/

namespace H2ClientProxy

variable {buf t after : Bytes} {u u' : HttpParserUrl} {f : UrlField} {p n : ℕ} {st : HostState}

/-- The characters of an IPv6 literal. -/
def isV6Char (c : UInt8) : Bool := isHex c || c = ascii ':' || c = ascii '.'

/-- A host as it is reported: a name, or an IPv6 literal without its brackets. -/
structure IsHost (host : Bytes) : Prop where
  ne_nil : host ≠ []
  chars : (∀ c ∈ host, isHostChar c = true) ∨ ∀ c ∈ host, isV6Char c = true

/-- A port: digits. -/
structure IsPort (port : Bytes) : Prop where
  ne_nil : port ≠ []
  digits : ∀ c ∈ port, isNum c = true

/-! ### Runs -/

/-- The loop over a run of characters on which the automaton stays in the state `s`. -/
theorem hostLoop_run {s : HostState} {P : UInt8 → Bool} (hs : s ≠ .dead)
    (hP : ∀ c, P c = true → httpParseHostChar s c = s)
    (hrec : ∀ u p, recordHost u s s p = u.grow f) (text : Bytes) (off : ℕ)
    (hn : n + text.length < 2 ^ 16) :
    hostLoop text p s (u.put f off n) =
      hostLoop (text.dropWhile P) (p + (text.takeWhile P).length) s
        (u.put f off (n + (text.takeWhile P).length)) := by
  induction text generalizing p n with
  | nil => rfl
  | cons c text ih =>
    rw [List.length_cons] at hn
    cases hc : P c with
    | false => simp [hc]
    | true =>
      rw [hostLoop]
      simp only [hP c hc, hs, if_false, hrec]
      rw [grow_put (by omega), ih (by omega), List.dropWhile_cons_of_pos hc,
        List.takeWhile_cons_of_pos hc, List.length_cons, Nat.add_assoc p, Nat.add_assoc n,
        Nat.add_comm 1]

theorem hostLoop_dead {s : HostState} {c : UInt8} (hc : httpParseHostChar s c = .dead) :
    hostLoop (c :: t) p s u = (none, u) := by
  rw [hostLoop]
  simp only [hc, if_true]

/-- A byte that is not recorded. -/
theorem hostLoop_delimiter {s s' : HostState} {c : UInt8} (hc : httpParseHostChar s c = s')
    (hs' : s' ≠ .dead) (hrec : recordHost u s s' p = u) :
    hostLoop (c :: t) p s u = hostLoop t (p + 1) s' u := by
  rw [hostLoop]
  simp only [hc, hs', if_false, hrec]

/-- The first byte of the host. -/
theorem moveHost_grow (hset : u.fieldSet .host = true) (hlen : (u.fieldData .host).len = 0)
    (hp : p < 2 ^ 16) : (u.moveHost p).grow .host = u.put .host p 1 := by
  have hupdate : Function.update u.fieldSet .host true = u.fieldSet := by
    rw [← hset]
    exact Function.update_eq_self _ _
  unfold HttpParserUrl.moveHost HttpParserUrl.grow HttpParserUrl.put
  simp only [Function.update_self, Function.update_idem, hlen, hupdate]
  rw [u16_of_lt hp, u16_of_lt (by decide)]

/-! ### The port -/

/-- The run of the digits, from the first one. -/
theorem hostLoop_portRun {c : UInt8} (hc : isNum c = true) (hp : p + t.length + 1 < 2 ^ 16) :
    hostLoop (c :: t) p .hostPortStart u = hostLoop (t.dropWhile isNum)
      (p + 1 + (t.takeWhile isNum).length) .hostPort
      (u.put .port p (1 + (t.takeWhile isNum).length)) := by
  have hstep : httpParseHostChar .hostPortStart c = .hostPort := by
    simp [httpParseHostChar, hc]
  rw [hostLoop]
  simp only [hstep, recordHost]
  rw [if_neg (by decide), if_neg (by decide), start_eq_put (by omega)]
  exact hostLoop_run (by decide) (fun c hc => by simp [httpParseHostChar, hc])
    (fun _ _ => rfl) t p (by omega)

/-- Digits behind the colon are the port. -/
theorem hostLoop_digits (ht : IsPort t) (hp : p + t.length < 2 ^ 16) :
    hostLoop t p .hostPortStart u = (some .hostPort, u.put .port p t.length) := by
  obtain ⟨c, t, rfl⟩ := List.exists_cons_of_ne_nil ht.ne_nil
  have hdigits := ht.digits
  simp only [List.mem_cons, forall_eq_or_imp] at hdigits
  have hdrop : t.dropWhile isNum = [] := List.dropWhile_eq_nil_iff.2 hdigits.2
  have htake : t.takeWhile isNum = t := List.takeWhile_eq_self_iff.2 hdigits.2
  rw [List.length_cons] at hp
  rw [hostLoop_portRun hdigits.1 (by omega), hdrop, htake, List.length_cons, Nat.add_comm 1]
  rfl

/-- Nothing else is accepted behind the colon. -/
theorem hostLoop_port (hok : hostLoop t p .hostPortStart u = (some st, u'))
    (hfinal : st.final = true) (hp : p + t.length < 2 ^ 16) :
    IsPort t ∧ u' = u.put .port p t.length := by
  have hport : IsPort t := by
    obtain _ | ⟨c, t⟩ := t
    · cases hok
      exact Bool.noConfusion hfinal
    rw [List.length_cons] at hp
    cases hc : isNum c with
    | false =>
      rw [hostLoop_dead (by simp [httpParseHostChar, hc])] at hok
      cases hok
    | true =>
      rw [hostLoop_portRun hc (by omega)] at hok
      obtain ⟨hnil, -⟩ | ⟨d, r, hcons, hd⟩ := dropWhile_cases isNum t
      · refine ⟨List.cons_ne_nil _ _, ?_⟩
        simp only [List.mem_cons, forall_eq_or_imp]
        exact ⟨hc, List.dropWhile_eq_nil_iff.1 hnil⟩
      · rw [hcons, hostLoop_dead (by simp [httpParseHostChar, hd])] at hok
        cases hok
  refine ⟨hport, ?_⟩
  rw [hostLoop_digits hport hp] at hok
  exact (Prod.mk.inj hok).2.symm

/-- What is behind the host: nothing, or a colon and the port. -/
inductive HostTail (t : Bytes) (p : ℕ) (u : HttpParserUrl) : HttpParserUrl → Prop
  | none (h : t = []) : HostTail t p u u
  | port {port : Bytes} (h : t = ascii ':' :: port) (hport : IsPort port) :
      HostTail t p u (u.put .port (p + 1) port.length)

/-- A host has ended. -/
theorem hostLoop_hostEnd {s : HostState} (hok : hostLoop t p s u = (some st, u'))
    (hfinal : st.final = true) (hp : p + t.length < 2 ^ 16)
    (hs : ∀ c r, t = c :: r →
      httpParseHostChar s c = if c = ascii ':' then .hostPortStart else .dead) :
    HostTail t p u u' := by
  obtain _ | ⟨c, t⟩ := t
  · cases hok
    exact HostTail.none rfl
  rw [List.length_cons] at hp
  have hc := hs c t rfl
  split_ifs at hc with hcolon
  · rw [hostLoop_delimiter hc (by decide) rfl] at hok
    obtain ⟨hport, rfl⟩ := hostLoop_port hok hfinal (by omega)
    rw [hcolon]
    exact HostTail.port rfl hport
  · rw [hostLoop_dead hc] at hok
    cases hok

/-! ### The host -/

/-- The host `host` lies at `p`, and `u'` is `u` with the host and what is behind it. -/
structure HostAt (buf after host : Bytes) (p : ℕ) (u u' : HttpParserUrl) : Prop where
  isHost : IsHost host
  text : ∃ t, buf.drop p = host ++ t
  tail : ∃ t q, buf.drop q = t ++ after ∧ HostTail t q (u.put .host p host.length) u'

/-- The run of the characters of the host, from its first one. -/
theorem hostLoop_first {s s' : HostState} {P : UInt8 → Bool} {c : UInt8}
    (hstep : httpParseHostChar s c = s') (hs' : s' ≠ .dead)
    (hfirst : recordHost u s s' p = (u.moveHost p).grow .host)
    (hP : ∀ c, P c = true → httpParseHostChar s' c = s')
    (hrec : ∀ u p, recordHost u s' s' p = u.grow .host) (hset : u.fieldSet .host = true)
    (hlen : (u.fieldData .host).len = 0) (hp : p + t.length + 1 < 2 ^ 16) :
    hostLoop (c :: t) p s u = hostLoop (t.dropWhile P) (p + (c :: t.takeWhile P).length) s'
      (u.put .host p (c :: t.takeWhile P).length) := by
  rw [hostLoop]
  simp only [hstep, hs', if_false, hfirst]
  rw [moveHost_grow hset hlen (by omega), hostLoop_run hs' hP hrec t p (by omega), List.length_cons,
    Nat.add_assoc p, Nat.add_comm 1]

/-- The texts of a run and of what is behind it. -/
theorem drop_of_first {c : UInt8} (hbuf : buf.drop p = c :: t ++ after) (P : UInt8 → Bool) :
    buf.drop p = (c :: t.takeWhile P) ++ (t.dropWhile P ++ after) ∧
      buf.drop (p + (c :: t.takeWhile P).length) = t.dropWhile P ++ after := by
  have hsplit : buf.drop p = (c :: t.takeWhile P) ++ (t.dropWhile P ++ after) := by
    rw [hbuf, List.cons_append, List.cons_append, ← List.append_assoc,
      List.takeWhile_append_dropWhile]
  exact ⟨hsplit, drop_of_append hsplit⟩

/-- The length of a text in a buffer. -/
theorem length_of_append {c : UInt8} (hbuf : buf.drop p = c :: t ++ after) :
    p + t.length + 1 + after.length = buf.length := by
  have hlen := length_of_cons (show buf.drop p = c :: (t ++ after) from hbuf)
  rw [List.length_append] at hlen
  omega

theorem length_dropWhile_add (P : UInt8 → Bool) (t : Bytes) :
    (t.takeWhile P).length + (t.dropWhile P).length = t.length := by
  rw [← List.length_append, List.takeWhile_append_dropWhile]

/-- A name. -/
theorem hostLoop_name {c : UInt8} (hok : hostLoop (c :: t) p .hostStart u = (some st, u'))
    (hfinal : st.final = true) (hbuf : buf.drop p = c :: t ++ after) (hshort : buf.length < 2 ^ 16)
    (hset : u.fieldSet .host = true) (hlen : (u.fieldData .host).len = 0)
    (hc : isHostChar c = true) : ∃ host q, HostAt buf after host q u u' := by
  have hpos := length_of_append hbuf
  have hlens := length_dropWhile_add isHostChar t
  have hbracket : c ≠ ascii '[' := by
    rintro rfl
    exact absurd hc (by decide)
  have hstep : httpParseHostChar .hostStart c = .host := by
    simp [httpParseHostChar, hbracket, hc]
  rw [hostLoop_first (P := isHostChar) hstep (by decide) rfl
    (fun c hc => by simp [httpParseHostChar, hc]) (fun _ _ => rfl) hset hlen (by omega)] at hok
  have htail := hostLoop_hostEnd hok hfinal (by rw [List.length_cons]; omega) (by
    intro d r hcons
    have hhead := List.head?_dropWhile_not isHostChar t
    rw [hcons] at hhead
    have hd : isHostChar d = false := hhead
    simp [httpParseHostChar, hd])
  obtain ⟨hsplit, hrest⟩ := drop_of_first hbuf isHostChar
  refine ⟨c :: t.takeWhile isHostChar, p, ⟨List.cons_ne_nil _ _, Or.inl ?_⟩, ⟨_, hsplit⟩,
    t.dropWhile isHostChar, _, hrest, htail⟩
  simp only [List.mem_cons, forall_eq_or_imp]
  exact ⟨hc, fun d hd => List.mem_takeWhile_imp hd⟩

/-- An IPv6 literal, behind its opening bracket. -/
theorem hostLoop_v6 {c : UInt8} (hok : hostLoop (c :: t) p .hostV6Start u = (some st, u'))
    (hfinal : st.final = true) (hbuf : buf.drop p = c :: t ++ after) (hshort : buf.length < 2 ^ 16)
    (hset : u.fieldSet .host = true) (hlen : (u.fieldData .host).len = 0) :
    ∃ host q, HostAt buf after host q u u' := by
  have hpos := length_of_append hbuf
  have hlens := length_dropWhile_add isV6Char t
  cases hc : isV6Char c with
  | false =>
    have hstep : httpParseHostChar .hostV6Start c = .dead := by
      unfold isV6Char at hc
      simp [httpParseHostChar, hc]
    rw [hostLoop_dead hstep] at hok
    cases hok
  | true =>
    have hclass : ∀ d, isV6Char d = true → httpParseHostChar .hostV6 d = .hostV6 := by
      intro d hd
      have hbracket : d ≠ ascii ']' := by
        rintro rfl
        exact absurd hd (by decide)
      unfold isV6Char at hd
      simp [httpParseHostChar, hbracket, hd]
    have hstep : httpParseHostChar .hostV6Start c = .hostV6 := by
      unfold isV6Char at hc
      simp [httpParseHostChar, hc]
    rw [hostLoop_first (P := isV6Char) hstep (by decide) rfl hclass (fun _ _ => rfl) hset hlen
      (by omega)] at hok
    obtain ⟨hsplit, hrest⟩ := drop_of_first hbuf isV6Char
    obtain ⟨hnil, -⟩ | ⟨d, r, hcons, hd⟩ := dropWhile_cases isV6Char t
    · -- the closing bracket is missing
      rw [hnil] at hok
      cases hok
      exact Bool.noConfusion hfinal
    · rw [hcons] at hok hrest hlens
      rw [List.length_cons] at hlens
      by_cases hbracket : d = ascii ']'
      · have hclose : httpParseHostChar .hostV6 d = .hostV6End := by
          simp [httpParseHostChar, hbracket]
        rw [hostLoop_delimiter hclose (by decide) rfl] at hok
        have htail := hostLoop_hostEnd hok hfinal (by rw [List.length_cons]; omega)
          (fun _ _ _ => rfl)
        refine ⟨c :: t.takeWhile isV6Char, p, ⟨List.cons_ne_nil _ _, Or.inr ?_⟩, ⟨_, hsplit⟩,
          r, _, drop_of_cons hrest, htail⟩
        simp only [List.mem_cons, forall_eq_or_imp]
        exact ⟨hc, fun d hd => List.mem_takeWhile_imp hd⟩
      · have hdead : httpParseHostChar .hostV6 d = .dead := by
          unfold isV6Char at hd
          simp [httpParseHostChar, hbracket, hd]
        rw [hostLoop_dead hdead] at hok
        cases hok

/-- Host and port, from the start of the host. -/
theorem hostLoop_parts (hok : hostLoop t p .hostStart u = (some st, u')) (hfinal : st.final = true)
    (hbuf : buf.drop p = t ++ after) (hshort : buf.length < 2 ^ 16)
    (hset : u.fieldSet .host = true) (hlen : (u.fieldData .host).len = 0) :
    ∃ host q, HostAt buf after host q u u' := by
  obtain _ | ⟨c, t⟩ := t
  · cases hok
    exact Bool.noConfusion hfinal
  by_cases hbracket : c = ascii '['
  · have hopen : httpParseHostChar .hostStart c = .hostV6Start := by
      simp [httpParseHostChar, hbracket]
    rw [hostLoop_delimiter hopen (by decide) rfl] at hok
    obtain _ | ⟨d, t⟩ := t
    · cases hok
      exact Bool.noConfusion hfinal
    · exact hostLoop_v6 hok hfinal (drop_of_cons hbuf) hshort hset hlen
  · cases hc : isHostChar c with
    | false =>
      rw [hostLoop_dead (by simp [httpParseHostChar, hbracket, hc])] at hok
      cases hok
    | true => exact hostLoop_name hok hfinal hbuf hshort hset hlen hc

/-- The user information is skipped. -/
theorem hostLoop_userinfo {s : HostState} (hok : hostLoop t p s u = (some st, u'))
    (hfinal : st.final = true) (hs : s = .userinfoStart ∨ s = .userinfo)
    (hbuf : buf.drop p = t ++ after) :
    ∃ t' q u₁, hostLoop t' q .hostStart u₁ = (some st, u') ∧ buf.drop q = t' ++ after ∧
      ∀ g, g ≠ .userinfo → u₁.fieldSet g = u.fieldSet g ∧ u₁.fieldData g = u.fieldData g := by
  induction t generalizing p s u with
  | nil =>
    cases hok
    obtain rfl | rfl := hs <;> exact Bool.noConfusion hfinal
  | cons c t ih =>
    have hc : httpParseHostChar s c = if c = ascii '@' then .hostStart
        else if isUserinfoChar c then .userinfo else .dead := by
      obtain rfl | rfl := hs <;> rfl
    split_ifs at hc with hat hchar
    · rw [hostLoop_delimiter hc (by decide) rfl] at hok
      exact ⟨t, p + 1, u, hok, drop_of_cons hbuf, fun _ _ => ⟨rfl, rfl⟩⟩
    · rw [hostLoop, hc, if_neg (by decide)] at hok
      obtain ⟨t', q, u₁, hok', hbuf', hsame⟩ := ih hok (Or.inr rfl) (drop_of_cons hbuf)
      refine ⟨t', q, u₁, hok', hbuf', ?_⟩
      intro g hg
      obtain ⟨hset, hdata⟩ := hsame g hg
      rw [hset, hdata]
      unfold recordHost
      dsimp only
      split_ifs
      · exact ⟨rfl, by rw [grow_fieldData, if_neg hg]⟩
      · exact ⟨by rw [start_fieldSet, if_neg hg], by rw [start_fieldData, if_neg hg]⟩
    · rw [hostLoop_dead hc] at hok
      cases hok

/-- The structure that the loop of `http_parse_host_` starts with. -/
def HttpParserUrl.clearHost (u : HttpParserUrl) : HttpParserUrl :=
  { u with fieldData := Function.update u.fieldData .host { u.fieldData .host with len := 0 } }

theorem clearHost_fieldData (g : UrlField) : u.clearHost.fieldData g =
    if g = .host then ⟨(u.fieldData .host).off, 0⟩ else u.fieldData g := Function.update_apply ..

/-- The loop of `http_parse_host_` over a server part that is accepted. -/
theorem hostLoop_of_httpParseHost {foundAt : Bool} {server : Bytes}
    (hok : httpParseHost buf u foundAt = (true, u'))
    (hbuf : buf.drop (u.fieldData .host).off = server ++ after)
    (hlen : (u.fieldData .host).len = server.length) :
    ∃ st, st.final = true ∧ hostLoop server (u.fieldData .host).off
      (if foundAt then .userinfoStart else .hostStart) u.clearHost = (some st, u') := by
  unfold httpParseHost at hok
  dsimp only at hok
  rw [hbuf, hlen, List.take_left] at hok
  obtain ⟨hany, hu⟩ := Prod.mk.inj hok
  obtain ⟨st, hst, hfinal⟩ := (Option.any_eq_true ..).1 hany
  exact ⟨st, hfinal, Prod.ext hst hu⟩

/-- What `http_parse_host_` reports of the server part that it accepts. -/
theorem httpParseHost_parts {foundAt : Bool} {server : Bytes}
    (hok : httpParseHost buf u foundAt = (true, u'))
    (hbuf : buf.drop (u.fieldData .host).off = server ++ after)
    (hlen : (u.fieldData .host).len = server.length) (hshort : buf.length < 2 ^ 16)
    (hset : u.fieldSet .host = true) :
    ∃ host q u₁, HostAt buf after host q u₁ u' ∧ ∀ g, g ≠ .userinfo → g ≠ .host →
      u₁.fieldSet g = u.fieldSet g ∧ u₁.fieldData g = u.fieldData g := by
  obtain ⟨st, hfinal, hloop⟩ := hostLoop_of_httpParseHost hok hbuf hlen
  have hzero : (u.clearHost.fieldData .host).len = 0 := by
    rw [clearHost_fieldData, if_pos rfl]
  cases foundAt with
  | true =>
    obtain ⟨t, p, u₁, hloop₁, hbuf₁, hsame⟩ := hostLoop_userinfo hloop hfinal (Or.inl rfl) hbuf
    obtain ⟨hset₁, hdata₁⟩ := hsame .host (by decide)
    obtain ⟨host, q, hat⟩ := hostLoop_parts hloop₁ hfinal hbuf₁ hshort (hset₁.trans hset)
      (by rw [hdata₁]; exact hzero)
    refine ⟨host, q, u₁, hat, ?_⟩
    intro g huser hhost
    obtain ⟨hset_g, hdata_g⟩ := hsame g huser
    rw [hset_g, hdata_g, clearHost_fieldData, if_neg hhost]
    exact ⟨rfl, rfl⟩
  | false =>
    obtain ⟨host, q, hat⟩ := hostLoop_parts hloop hfinal hbuf hshort hset hzero
    refine ⟨host, q, u.clearHost, hat, ?_⟩
    intro g _ hhost
    rw [clearHost_fieldData, if_neg hhost]
    exact ⟨rfl, rfl⟩

/-- The port that is reported behind a host. -/
inductive PortAt (buf after : Bytes) (u : HttpParserUrl) : Option Bytes → Prop
  | none (h : u.fieldSet .port = false) : PortAt buf after u none
  | some {port : Bytes} (hport : IsPort port) (h : u.fieldSet .port = true)
      (hbuf : buf.drop (u.fieldData .port).off = port ++ after) : PortAt buf after u (some port)

/-- The parts that `HostAt` leaves in the structure. -/
theorem HostAt.parts {host : Bytes} {q : ℕ} (h : HostAt buf after host q u u')
    (hport : u.fieldSet .port = false) :
    partOf buf u' .host = some host ∧ PortAt buf after u' (partOf buf u' .port) ∧
      ∀ g, g ≠ .host → g ≠ .port → partOf buf u' g = partOf buf u g := by
  obtain ⟨-, ⟨rest, htext⟩, t, p, hbuf, htail⟩ := h
  have hputs : Puts buf .host (some host) u (u.put .host q host.length) := by
    apply puts_put
    rw [htext, List.take_left]
  cases htail with
  | none hnil =>
    have hset : (u.put .host q host.length).fieldSet .port = false :=
      (hputs.fieldSet _ (by decide)).trans hport
    refine ⟨hputs.part, ?_, fun g hg _ => hputs.partOf_eq hg⟩
    rw [partOf, hset]
    exact PortAt.none hset
  | @port port hcolon hdigits =>
    rw [hcolon] at hbuf
    have hbuf' : buf.drop (p + 1) = port ++ after := drop_of_cons hbuf
    have hputs' : Puts buf .port (some port) (u.put .host q host.length)
        ((u.put .host q host.length).put .port (p + 1) port.length) := by
      apply puts_put
      rw [hbuf', List.take_left]
    refine ⟨?_, ?_, ?_⟩
    · rw [hputs'.partOf_eq (by decide)]
      exact hputs.part
    · rw [hputs'.part]
      refine PortAt.some hdigits ?_ ?_
      · rw [put_fieldSet, if_pos rfl]
      · rw [put_fieldData, if_pos rfl]
        exact hbuf'
    · intro g hhost hgport
      rw [hputs'.partOf_eq hgport, hputs.partOf_eq hhost]

/-! ### Put together and taken apart -/

/-- A name, a colon and digits are taken apart again. -/
theorem hostLoop_compose {host port : Bytes} (hne : host ≠ [])
    (hchars : ∀ c ∈ host, isHostChar c = true) (hport : IsPort port)
    (hp : p + host.length + port.length + 1 < 2 ^ 16) (hset : u.fieldSet .host = true)
    (hlen : (u.fieldData .host).len = 0) :
    hostLoop (host ++ ascii ':' :: port) p .hostStart u =
      (some .hostPort, (u.put .host p host.length).put .port (p + host.length + 1) port.length) := by
  obtain ⟨c, host, rfl⟩ := List.exists_cons_of_ne_nil hne
  simp only [List.mem_cons, forall_eq_or_imp] at hchars
  simp only [List.length_cons] at hp
  have hbracket : c ≠ ascii '[' := by
    rintro rfl
    exact absurd hchars.1 (by decide)
  have hstep : httpParseHostChar .hostStart c = .host := by
    simp [httpParseHostChar, hbracket, hchars.1]
  have hcolon : ¬ isHostChar (ascii ':') = true := by decide
  have htake : (host ++ ascii ':' :: port).takeWhile isHostChar = host := by
    rw [List.takeWhile_append_of_pos hchars.2, List.takeWhile_cons_of_neg hcolon, List.append_nil]
  have hdrop : (host ++ ascii ':' :: port).dropWhile isHostChar = ascii ':' :: port := by
    rw [List.dropWhile_append_of_pos hchars.2, List.dropWhile_cons_of_neg hcolon]
  rw [List.cons_append, hostLoop_first (P := isHostChar) hstep (by decide) rfl
    (fun c hc => by simp [httpParseHostChar, hc]) (fun _ _ => rfl) hset hlen
    (by simp only [List.length_append, List.length_cons]; omega), htake, hdrop]
  have hmark : httpParseHostChar .host (ascii ':') = .hostPortStart := by decide
  rw [hostLoop_delimiter hmark (by decide) rfl]
  exact hostLoop_digits hport (by rw [List.length_cons]; omega)

/-- The states of a server part without user information and brackets. -/
def HostState.plain (s : HostState) : Bool :=
  s = .hostStart || s = .host || s = .hostPortStart || s = .hostPort

/-- How many colons make the loop fail, from where it is. -/
def HostState.colons : HostState → ℕ
  | .hostStart | .host => 2
  | _ => 1

/-- A colon that is accepted is not accepted again. -/
theorem plain_step {s : HostState} (hs : s.plain = true) {c : UInt8} (hc : c ≠ ascii '[')
    (hdead : httpParseHostChar s c ≠ .dead) :
    (httpParseHostChar s c).plain = true ∧
      ((httpParseHostChar s c).colons + if c = ascii ':' then 1 else 0) ≤ s.colons := by
  have hhost : isHostChar (ascii ':') = false := by decide
  have hnum : isNum (ascii ':') = false := by decide
  cases s <;> try exact Bool.noConfusion hs
  all_goals grind [httpParseHostChar, HostState.plain, HostState.colons]

/-- Without brackets there is at most one colon. -/
theorem hostLoop_colons {s : HostState} (hs : s.plain = true) (hbracket : ascii '[' ∉ t)
    (hcolons : s.colons ≤ t.count (ascii ':')) : (hostLoop t p s u).1 = none := by
  induction t generalizing p s u with
  | nil =>
    have hpos : 0 < s.colons := by cases s <;> decide
    rw [List.count_nil] at hcolons
    omega
  | cons c t ih =>
    have hc : c ≠ ascii '[' := fun h => hbracket (h ▸ List.mem_cons_self)
    have hrest : ascii '[' ∉ t := fun h => hbracket (List.mem_cons_of_mem c h)
    rw [hostLoop]
    split_ifs with hdead
    · rfl
    · obtain ⟨hplain, hcost⟩ := plain_step hs hc hdead
      apply ih hplain hrest
      rw [List.count_cons] at hcolons
      simp only [beq_iff_eq] at hcolons
      omega

/-! ### The value of the port -/

/-- Digits are read up to the first character that is none. -/
theorem digitsValue_append {digits : Bytes} (hdigits : ∀ c ∈ digits, isNum c = true)
    (hafter : ∀ c r, after = c :: r → isNum c = false) (acc : ℕ) :
    digitsValue (digits ++ after) acc = digitsValue digits acc := by
  induction digits generalizing acc with
  | nil =>
    cases after with
    | nil => rfl
    | cons c r =>
      show digitsValue (c :: r) acc = acc
      rw [digitsValue, hafter c r rfl]
      rfl
  | cons c digits ih =>
    simp only [List.mem_cons, forall_eq_or_imp] at hdigits
    rw [List.cons_append, digitsValue, digitsValue, if_pos hdigits.1, if_pos hdigits.1,
      ih hdigits.2]

/-- `strtoul` of the text at a port. -/
theorem strtoul_digits {port : Bytes} (hport : IsPort port)
    (hafter : ∀ c r, after = c :: r → isNum c = false) :
    strtoul (port ++ after) = if 2 ^ 64 ≤ digitsValue port 0 then 2 ^ 64 - 1
      else digitsValue port 0 := by
  have hvalue := digitsValue_append hport.digits hafter 0
  obtain ⟨c, port, rfl⟩ := List.exists_cons_of_ne_nil hport.ne_nil
  have hc : isNum c = true := hport.digits c List.mem_cons_self
  have hminus : ¬ (c :: port ++ after).head? = some (ascii '-') := by
    rintro ⟨⟩
    exact absurd hc (by decide)
  have hplus : ¬ (c :: port ++ after).head? = some (ascii '+') := by
    rintro ⟨⟩
    exact absurd hc (by decide)
  unfold strtoul
  simp only [hminus, hplus, or_self, if_false, hvalue]

end H2ClientProxy
