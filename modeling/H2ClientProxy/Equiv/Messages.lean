import H2ClientProxy.Equiv.MessageFields
import H2ClientProxy.Equiv.Feed

/-!
# The parser understands requests

* `runs_identity`, `runs_chunks`: the bodies with a length and in chunks.
* `runs_message`: a request makes its calls, whatever its body is.
* `runs_messages`: so do requests that follow each other on a connection.
-/

namespace H2ClientProxy

variable {p : HttpParser} {calls : List Callback} {ch : UInt8} {m : Message}

/-! ### A body with a length -/

/-- A byte of a body. -/
theorem execByte_body {e : Exec} (hp : e.parser.state.parsingHeader = false) (ch : UInt8) :
    execByte e ch = (execState e ch).pass ch := by
  unfold execByte
  rw [hp]
  rfl

/-- What is marked so far, and `data`. -/
def markedBody (o : Option Bytes) (data : Bytes) : Bytes := o.getD [] ++ data

theorem runs_identity {data : Bytes} {o : Option Bytes} (hs : p.state = .bodyIdentity)
    (he : p.errno = none) (hne : data ≠ []) (hlen : p.contentLength = data.length) :
    Runs { parser := p, bodyMark := o, calls := calls } data
      { parser := { p with contentLength := 0, state := newMessage p }
        calls := calls ++ [Callback.body (markedBody o data)] ++ [Callback.messageComplete] } := by
  induction data generalizing p o with
  | nil => exact absurd rfl hne
  | cons c w ih =>
    rw [List.length_cons] at hlen
    by_cases hlast : w = []
    · subst hlast
      refine .single ?_ he he
      rw [execByte_body (by rw [hs]; rfl), execState]
      dsimp only
      rw [hs]
      dsimp only
      rw [bodyIdentity]
      dsimp only
      rw [if_pos (by show p.contentLength - 1 = 0; rw [hlen]; rfl), hlen]
      rfl
    · have hpos : 0 < w.length := List.length_pos_iff.mpr hlast
      have hstep : Runs { parser := p, bodyMark := o, calls := calls } [c]
          { parser := { p with contentLength := w.length }
            bodyMark := some (markedBody o [c]), calls := calls } := by
        refine .single ?_ he he
        rw [execByte_body (by rw [hs]; rfl), execState]
        dsimp only
        rw [hs]
        dsimp only
        rw [bodyIdentity]
        dsimp only
        rw [if_neg (by show ¬p.contentLength - 1 = 0; omega), hlen, hs]
        rfl
      have hrest := ih (p := { p with contentLength := w.length }) (o := some (markedBody o [c]))
        hs he hlast rfl
      have hdata : markedBody (some (markedBody o [c])) w = markedBody o (c :: w) := by
        simp only [markedBody, Option.getD_some, List.append_assoc, List.cons_append, List.nil_append]
      rw [hdata] at hrest
      exact hstep.trans hrest

/-! ### A body in chunks -/

theorem hexVal_eq : ∀ n : ℕ, n < 256 → (Chunked.hexVal n.toUInt8).isSome = true →
    unhex n.toUInt8 = Chunked.hexVal n.toUInt8 ∧ n.toUInt8 ≠ cr := by
  decide +kernel

/-- A digit of a size. -/
theorem unhex_of_hexVal {c : UInt8} {d : ℕ} (h : Chunked.hexVal c = some d) : unhex c = some d ∧ c ≠ cr := by
  have hall := hexVal_eq c.toNat c.toNat_lt
  rw [show c.toNat.toUInt8 = c from UInt8.ofNat_toNat, h] at hall
  exact hall rfl

theorem readDigits_cons {c : UInt8} {w : Bytes} {acc n : ℕ}
    (h : Chunked.readDigits acc (c :: w) = (n, [])) :
    ∃ d, Chunked.hexVal c = some d ∧ Chunked.readDigits (acc * 16 + d) w = (n, []) := by
  rw [Chunked.readDigits] at h
  cases hc : Chunked.hexVal c with
  | none =>
    rw [hc] at h
    exact absurd (congrArg Prod.snd h) (List.cons_ne_nil c w)
  | some d =>
    rw [hc] at h
    exact ⟨d, rfl, h⟩

theorem le_readDigits {w : Bytes} {acc n : ℕ} (h : Chunked.readDigits acc w = (n, [])) : acc ≤ n := by
  induction w generalizing acc with
  | nil => exact (congrArg Prod.fst h).le
  | cons c w ih =>
    obtain ⟨d, -, hrest⟩ := readDigits_cons h
    have hle := ih hrest
    omega

/-- The digits of a size behind the first one. -/
theorem runs_sizeRest {w : Bytes} {n : ℕ} (hs : p.state = .chunkSize) (he : p.errno = none)
    (hn : p.nread + w.length ≤ httpMaxHeaderSize)
    (hw : Chunked.readDigits p.contentLength w = (n, [])) (hlt : n < ullongMax) :
    Runs { parser := p, calls := calls } w
      { parser := { p with contentLength := n, nread := p.nread + w.length }, calls := calls } := by
  induction w generalizing p with
  | nil =>
    have hlen : p.contentLength = n := congrArg Prod.fst hw
    rw [← hlen]
    exact .refl he
  | cons c w ih =>
    obtain ⟨d, hd, hrest⟩ := readDigits_cons hw
    obtain ⟨hhex, hcr⟩ := unhex_of_hexVal hd
    have hle := le_readDigits hrest
    rw [List.length_cons] at hn
    have hstep : Runs { parser := p, calls := calls } [c]
        { parser := { p with contentLength := p.contentLength * 16 + d, nread := p.nread + 1 }
          calls := calls } := by
      refine .single ?_ he he
      rw [execByte_head (by rw [hs]; rfl) (by show p.nread < _; omega), execState]
      dsimp only
      rw [hs]
      dsimp only
      rw [chunkSize, if_neg hcr, hhex]
      dsimp only
      rw [addDigit_of_lt (by decide) (hle.trans_lt hlt)]
      rfl
    have hall := hstep.trans (ih (p := { p with
      contentLength := p.contentLength * 16 + d, nread := p.nread + 1 }) hs he
      (by show p.nread + 1 + w.length ≤ _; omega) hrest)
    rw [List.length_cons, Nat.add_comm w.length 1, ← Nat.add_assoc]
    exact hall

/-- The line of a size, up to its line feed. -/
theorem runs_size (calls : List Callback) {size : Bytes} {n : ℕ} (hs : p.state = .chunkSizeStart)
    (he : p.errno = none) (hn : p.nread = 0) (hsize : IsSize size n) :
    ∃ k, k < httpMaxHeaderSize ∧ Runs { parser := p, calls := calls } (size ++ [cr])
      { parser := { p with contentLength := n, state := .chunkSizeAlmostDone, nread := k }
        calls := calls } := by
  obtain ⟨c, w, rfl⟩ := List.exists_cons_of_ne_nil hsize.ne
  obtain ⟨d, hd, hrest⟩ := readDigits_cons hsize.value
  obtain ⟨hhex, -⟩ := unhex_of_hexVal hd
  have hline := hsize.line
  rw [List.length_cons] at hline
  rw [Nat.zero_mul, Nat.zero_add] at hrest
  have h1 : Runs { parser := p, calls := calls } [c]
      { parser := { p with contentLength := d, state := .chunkSize, nread := 1 }, calls := calls } := by
    refine .single ?_ he he
    rw [execByte_head (by rw [hs]; rfl) (by show p.nread < _; omega), execState]
    dsimp only
    rw [hs, hn]
    dsimp only
    rw [chunkSizeStart, hhex]
    rfl
  have h2 := h1.trans (runs_sizeRest (w := w) rfl he (by show 1 + _ ≤ _; omega) hrest hsize.lt)
  have h3 : Runs
      { parser := { p with contentLength := n, state := .chunkSize, nread := 1 + w.length }
        calls := calls } [cr]
      { parser := { p with
          contentLength := n, state := .chunkSizeAlmostDone, nread := 1 + w.length + 1 }
        calls := calls } := by
    refine .single ?_ he he
    rw [execByte_head rfl (by show 1 + w.length < _; omega)]
    rfl
  exact ⟨1 + w.length + 1, by omega, h2.trans h3⟩

/-- The bytes of a chunk. -/
theorem runs_chunkData {data : Bytes} {o : Option Bytes} (hs : p.state = .chunkData)
    (he : p.errno = none) (hne : data ≠ []) (hlen : p.contentLength = data.length) :
    Runs { parser := p, bodyMark := o, calls := calls } data
      { parser := { p with contentLength := 0, state := .chunkDataAlmostDone }
        bodyMark := some (markedBody o data), calls := calls } := by
  induction data generalizing p o with
  | nil => exact absurd rfl hne
  | cons c w ih =>
    rw [List.length_cons] at hlen
    by_cases hlast : w = []
    · subst hlast
      refine .single ?_ he he
      rw [execByte_body (by rw [hs]; rfl), execState]
      dsimp only
      rw [hs]
      dsimp only
      rw [chunkData]
      dsimp only
      rw [hlen]
      rfl
    · have hpos : 0 < w.length := List.length_pos_iff.mpr hlast
      have hstep : Runs { parser := p, bodyMark := o, calls := calls } [c]
          { parser := { p with contentLength := w.length, state := .chunkData }
            bodyMark := some (markedBody o [c]), calls := calls } := by
        refine .single ?_ he he
        rw [execByte_body (by rw [hs]; rfl), execState]
        dsimp only
        rw [hs]
        dsimp only
        rw [chunkData]
        dsimp only
        rw [hlen, if_neg (by omega)]
        rfl
      have hrest := ih (p := { p with contentLength := w.length, state := .chunkData })
        (o := some (markedBody o [c])) rfl he hlast rfl
      have hdata : markedBody (some (markedBody o [c])) w = markedBody o (c :: w) := by
        simp only [markedBody, Option.getD_some, List.append_assoc, List.cons_append, List.nil_append]
      rw [hdata] at hrest
      exact hstep.trans hrest

/-- A chunk. -/
theorem runs_chunk {c : Chunk} (hs : p.state = .chunkSizeStart) (he : p.errno = none) (hn : p.nread = 0)
    (hne : c.data ≠ []) (hsize : IsSize c.size c.data.length) :
    Runs { parser := p, calls := calls } c.text
      { parser := { p with contentLength := 0 }, calls := calls ++ [Callback.body c.data] } := by
  obtain ⟨k, hk, h1⟩ := runs_size calls hs he hn hsize
  have hpos : c.data.length ≠ 0 := fun h => hne (List.eq_nil_of_length_eq_zero h)
  -- the line feed behind the size, the data, and the line end behind the data
  have h2 : Runs
      { parser := { p with
          contentLength := c.data.length, state := .chunkSizeAlmostDone, nread := k }
        calls := calls } [lf]
      { parser := { p with contentLength := c.data.length, state := .chunkData, nread := 0 }
        calls := calls } := by
    refine .single ?_ he he
    rw [execByte_head rfl hk, execState]
    dsimp only
    rw [chunkSizeAlmostDone]
    dsimp only
    rw [if_neg (by simp), if_neg hpos]
    rfl
  have h3 : Runs
      { parser := { p with contentLength := c.data.length, state := .chunkData, nread := 0 }
        calls := calls } c.data
      { parser := { p with contentLength := 0, state := .chunkDataAlmostDone, nread := 0 }
        bodyMark := some (markedBody none c.data), calls := calls } :=
    runs_chunkData rfl he hne rfl
  have h4 : Runs
      { parser := { p with contentLength := 0, state := .chunkDataAlmostDone, nread := 0 }
        bodyMark := some (markedBody none c.data), calls := calls } [cr]
      { parser := { p with contentLength := 0, state := .chunkDataDone, nread := 0 }
        calls := calls ++ [Callback.body c.data] } := by
    refine .single ?_ he he
    rw [execByte_body rfl]
    rfl
  have h5 : Runs
      { parser := { p with contentLength := 0, state := .chunkDataDone, nread := 0 }
        calls := calls ++ [Callback.body c.data] } [lf]
      { parser := { p with contentLength := 0 }, calls := calls ++ [Callback.body c.data] } := by
    refine .single ?_ he he
    rw [execByte_body rfl, hs, hn]
    rfl
  have hall := (((h1.trans h2).trans h3).trans h4).trans h5
  have htext : c.text = c.size ++ [cr] ++ [lf] ++ c.data ++ [cr] ++ [lf] := by
    simp only [Chunk.text, List.append_assoc]
    rfl
  rw [htext]
  exact hall

theorem runs_chunks (calls : List Callback) {chunks : List Chunk} (hs : p.state = .chunkSizeStart)
    (he : p.errno = none) (hn : p.nread = 0)
    (hchunks : ∀ c ∈ chunks, c.data ≠ [] ∧ IsSize c.size c.data.length) :
    ∃ n, Runs { parser := p, calls := calls } (chunks.flatMap Chunk.text)
      { parser := { p with contentLength := n }
        calls := calls ++ chunks.map fun c => Callback.body c.data } := by
  induction chunks generalizing p calls with
  | nil =>
    refine ⟨p.contentLength, ?_⟩
    rw [List.map_nil, List.append_nil]
    exact .refl he
  | cons c chunks ih =>
    obtain ⟨⟨hne, hsize⟩, hchunks⟩ := List.forall_mem_cons.mp hchunks
    have h1 : Runs { parser := p, calls := calls } _ _ := runs_chunk hs he hn hne hsize
    obtain ⟨n, h2⟩ := ih (p := { p with contentLength := 0 }) (calls ++ [Callback.body c.data])
      hs he hn hchunks
    refine ⟨n, ?_⟩
    rw [List.map_cons, List.append_cons]
    exact h1.trans h2

/-- The last chunk, and the end of the body. -/
theorem runs_last {last : Bytes} (hs : p.state = .chunkSizeStart) (he : p.errno = none)
    (hn : p.nread = 0) (hsize : IsSize last 0) :
    Runs { parser := p, calls := calls } (last ++ crlf ++ crlf)
      { parser := { p with
          contentLength := 0, nread := 2, flags := { p.flags with trailing := true }
          state := newMessage p }
        calls := calls ++ [Callback.messageComplete] } := by
  obtain ⟨k, hk, h1⟩ := runs_size calls hs he hn hsize
  -- a size of zero: the trailer begins, and is empty
  have h2 : Runs
      { parser := { p with contentLength := 0, state := .chunkSizeAlmostDone, nread := k }
        calls := calls } [lf]
      { parser := { p with
          contentLength := 0, state := .headerFieldStart, nread := 0
          flags := { p.flags with trailing := true } }
        calls := calls } := by
    refine .single ?_ he he
    rw [execByte_head rfl hk]
    rfl
  have h3 : Runs
      { parser := { p with
          contentLength := 0, state := .headerFieldStart, nread := 0
          flags := { p.flags with trailing := true } }
        calls := calls } [cr]
      { parser := { p with
          contentLength := 0, state := .headersAlmostDone, nread := 1
          flags := { p.flags with trailing := true } }
        calls := calls } := by
    refine .single ?_ he he
    rw [execByte_head rfl (by show 0 < httpMaxHeaderSize; decide)]
    rfl
  have h4 : Runs
      { parser := { p with
          contentLength := 0, state := .headersAlmostDone, nread := 1
          flags := { p.flags with trailing := true } }
        calls := calls } [lf]
      { parser := { p with
          contentLength := 0, nread := 2, flags := { p.flags with trailing := true }
          state := newMessage p }
        calls := calls ++ [Callback.messageComplete] } := by
    refine .single ?_ he he
    rw [execByte_head rfl (by show 1 < httpMaxHeaderSize; decide)]
    rfl
  have hall := ((h1.trans h2).trans h3).trans h4
  have htext : last ++ crlf ++ crlf = last ++ [cr] ++ [lf] ++ [cr] ++ [lf] := by
    simp only [List.append_assoc]
    rfl
  rw [htext]
  exact hall

/-! ### A tunnel -/

theorem runs_tunnel {data : Bytes} {o : Option Bytes} (hs : p.state = .bodyIdentityEof)
    (he : p.errno = none) (hne : data ≠ []) :
    Runs { parser := p, bodyMark := o, calls := calls } data
      { parser := p, bodyMark := some (markedBody o data), calls := calls } := by
  induction data generalizing o with
  | nil => exact absurd rfl hne
  | cons c w ih =>
    have hstep : Runs { parser := p, bodyMark := o, calls := calls } [c]
        { parser := p, bodyMark := some (markedBody o [c]), calls := calls } := by
      refine .single ?_ he he
      rw [execByte_body (by rw [hs]; rfl), execState]
      dsimp only
      rw [hs]
      rfl
    by_cases hlast : w = []
    · rw [hlast]
      exact hstep
    · have hrest := ih (o := some (markedBody o [c])) hlast
      have hdata : markedBody (some (markedBody o [c])) w = markedBody o (c :: w) := by
        simp only [markedBody, Option.getD_some, List.append_assoc, List.cons_append, List.nil_append]
      rw [hdata] at hrest
      exact hstep.trans hrest

/-! ### A request -/

/-- The parser waits for a request. -/
structure AtStart (p : HttpParser) : Prop where
  state : p.state = .startReq
  errno : p.errno = none
  nread : p.nread ≤ 2

theorem atStart_init : AtStart .init := ⟨rfl, rfl, by decide⟩

/-- What the parser knows of a request behind its header. -/
structure Knows (m : Message) (p : HttpParser) : Prop where
  errno : p.errno = none
  major : p.httpMajor = 1
  minor : p.httpMinor = m.minor
  flags : p.flags = m.framing.flags
  length : p.contentLength = m.framing.contentLength
  upgrade : p.upgrade = (m.framing.flags.upgrade || m.method = .connect)

/-- Whether another request may follow. -/
theorem httpShouldKeepAlive_eq (hp : Knows m p) (hbody : ∀ data, m.body ≠ .tunnel data) :
    httpShouldKeepAlive p = m.keepsAlive := by
  have hkeep : m.keepsAlive = if m.minor > 0 then !m.framing.flags.connectionClose
      else m.framing.flags.connectionKeepAlive := by
    unfold Message.keepsAlive
    cases hb : m.body with
    | tunnel data => exact absurd hb (hbody data)
    | _ => rfl
  rw [hkeep, httpShouldKeepAlive, hp.major, hp.minor, hp.flags]
  by_cases h : 0 < m.minor
  · rw [if_pos (by simp [h]), if_pos h]
  · rw [if_neg (by simp [h]), if_neg h]

/-- **The body** is read as it is framed. -/
theorem runs_body (calls : List Callback) (hm : m.WellFormed) (hp : Knows m p) :
    ∃ e', Runs (headersDone { parser := p, calls := calls }) m.body.text e' ∧
      e'.outcome = calls ++ Message.bodyCalls m.body ∧
      (m.keepsAlive = true →
        ∃ p', e' = { parser := p', calls := calls ++ Message.bodyCalls m.body } ∧ AtStart p') := by
  have he := hp.errno
  have hfits := hm.body
  have halive : (∀ data, m.body ≠ .tunnel data) → m.keepsAlive = true → newMessage p = .startReq :=
    fun hbody hkeep => if_pos (by rw [httpShouldKeepAlive_eq hp hbody]; exact hkeep)
  -- without an upgrade the head has said how the body is framed
  have htunnel : (m.framing.flags.upgrade || m.method = .connect) = false →
      headersDone { parser := p, calls := calls } =
        if m.framing.flags.chunked then
          { parser := { p with nread := 0, state := .chunkSizeStart }, calls := calls }
        else if p.contentLength ≠ 0 ∧ p.contentLength ≠ ullongMax then
          { parser := { p with nread := 0, state := .bodyIdentity }, calls := calls }
        else
          { parser := { p with nread := 0, state := newMessage p }
            calls := calls ++ [Callback.messageComplete] } := by
    intro hno
    unfold headersDone
    dsimp only
    rw [← hp.flags, if_neg (by rw [hp.upgrade, hno]; decide)]
    by_cases hchunked : p.flags.chunked = true
    · rw [if_pos hchunked, if_pos hchunked]
      rfl
    · rw [if_neg hchunked, if_neg hchunked]
      by_cases h0 : p.contentLength = 0
      · rw [if_pos h0, if_neg (by simp [h0])]
        rfl
      · rw [if_neg h0]
        by_cases hmax : p.contentLength = ullongMax
        · rw [if_neg (by simp [hmax]), if_neg (by simp [hmax])]
          rfl
        · rw [if_pos hmax, if_pos ⟨h0, hmax⟩]
          rfl
  cases hb : m.body with
  | none =>
    rw [hb] at hfits halive
    obtain ⟨hno, hchunked, hlen⟩ := hfits
    rw [htunnel hno, hchunked, if_neg (by decide), if_neg (by rw [hp.length]; omega)]
    have hrun : Runs
        { parser := { p with nread := 0, state := newMessage p }, calls := calls ++ [Callback.messageComplete] }
        Body.none.text _ := .refl he
    refine ⟨_, hrun, List.append_nil _, fun hkeep => ⟨_, rfl, ?_⟩⟩
    exact ⟨halive (fun _ h => Body.noConfusion h) hkeep, he, Nat.zero_le 2⟩
  | length data =>
    rw [hb] at hfits halive
    obtain ⟨hno, hchunked, hne, hlen, hlt⟩ := hfits
    have hpos : 0 < data.length := List.length_pos_iff.mpr hne
    rw [htunnel hno, hchunked, if_neg (by decide), if_pos (by rw [hp.length]; omega)]
    have hrun : Runs { parser := { p with nread := 0, state := .bodyIdentity }, calls := calls } data _ :=
      runs_identity rfl he hne (hp.length.trans hlen)
    rw [List.append_assoc] at hrun
    refine ⟨_, hrun, List.append_nil _, fun hkeep => ⟨_, rfl, ?_⟩⟩
    exact ⟨halive (fun _ h => Body.noConfusion h) hkeep, he, Nat.zero_le 2⟩
  | chunked chunks last =>
    rw [hb] at hfits halive
    obtain ⟨hno, hchunked, hchunks, hlast⟩ := hfits
    rw [htunnel hno, if_pos hchunked]
    obtain ⟨n, hrun1⟩ := runs_chunks (p := { p with nread := 0, state := .chunkSizeStart })
      calls rfl he rfl hchunks
    have hrun := hrun1.trans (runs_last rfl he rfl hlast)
    rw [List.append_assoc calls] at hrun
    refine ⟨_, hrun, List.append_nil _, fun hkeep => ⟨_, rfl, ?_⟩⟩
    exact ⟨halive (fun _ h => Body.noConfusion h) hkeep, he, le_rfl⟩
  | tunnel data =>
    -- after an upgrade all that follows is one body, which never ends
    rw [hb] at hfits
    have hyes : p.upgrade = true := hp.upgrade.trans hfits
    have hdone : headersDone { parser := p, calls := calls } =
        { parser := { p with nread := 0, state := .bodyIdentityEof }, calls := calls } := by
      unfold headersDone
      dsimp only
      rw [if_pos hyes]
      rfl
    have hkeep : m.keepsAlive = false := by
      unfold Message.keepsAlive
      rw [hb]
    rw [hdone, hkeep]
    by_cases hnil : data = []
    · subst hnil
      refine ⟨_, .refl he, ?_, fun h => absurd h Bool.false_ne_true⟩
      rfl
    · have hrun : Runs { parser := { p with nread := 0, state := .bodyIdentityEof }, calls := calls } data _ :=
        runs_tunnel rfl he hnil
      refine ⟨_, hrun, ?_, fun h => absurd h Bool.false_ne_true⟩
      rw [Message.bodyCalls, if_neg hnil]
      rfl

/-- **A request** makes its calls; if it leaves the connection open, the parser waits for another one. -/
theorem runs_message (calls : List Callback) (hm : m.WellFormed) (hp : AtStart p) :
    ∃ e', Runs { parser := p, calls := calls } m.text e' ∧ e'.outcome = calls ++ m.calls ∧
      (m.keepsAlive = true → ∃ p', e' = { parser := p', calls := calls ++ m.calls } ∧ AtStart p') := by
  obtain ⟨p1, hhead, herr, -, hmajor, hminor, hflags, hlen, hupgrade⟩ :=
    runs_head calls hm hp.state hp.errno hp.nread
  obtain ⟨e', hbody, hout, hkeep⟩ := runs_body (calls ++ ([Callback.messageBegin, .url m.url]
    ++ m.fields.flatMap Message.fieldCalls ++ [Callback.headersComplete m.method])) hm
    ⟨herr, hmajor, hminor, hflags, hlen, hupgrade⟩
  rw [List.append_assoc calls] at hout hkeep
  exact ⟨e', hhead.trans hbody, hout, hkeep⟩

theorem runs_messages (calls : List Callback) {msgs : List Message} (hmsgs : Message.Pipelined msgs)
    (hp : AtStart p) :
    ∃ e', Runs { parser := p, calls := calls } (msgs.flatMap Message.text) e' ∧
      e'.outcome = calls ++ msgs.flatMap Message.calls := by
  induction msgs generalizing p calls with
  | nil => exact absurd rfl hmsgs.ne
  | cons m msgs ih =>
    obtain ⟨hm, hwf⟩ := List.forall_mem_cons.mp hmsgs.wellFormed
    obtain ⟨e1, hrun1, hout1, hkeep1⟩ := runs_message calls hm hp
    rw [List.flatMap_cons, List.flatMap_cons]
    by_cases hlast : msgs = []
    · rw [hlast, List.flatMap_nil, List.flatMap_nil, List.append_nil, List.append_nil]
      exact ⟨e1, hrun1, hout1⟩
    · have hdrop : (m :: msgs).dropLast = m :: msgs.dropLast := List.dropLast_cons_of_ne_nil hlast
      obtain ⟨hkeep, hkeeps⟩ := List.forall_mem_cons.mp (hdrop ▸ hmsgs.keepsAlive)
      obtain ⟨p1, rfl, hp1⟩ := hkeep1 hkeep
      obtain ⟨e2, hrun2, hout2⟩ := ih (calls ++ m.calls) ⟨hlast, hwf, hkeeps⟩ hp1
      refine ⟨e2, hrun1.trans hrun2, ?_⟩
      rw [hout2, List.append_assoc]

/-! ### The calls -/

theorem text_ne (m : Message) : m.text ≠ [] := by
  have hstr : m.method.str ≠ [] := by cases m.method <;> decide
  unfold Message.text Message.head Message.line
  simp [hstr]

theorem texts_ne {msgs : List Message} (hmsgs : Message.Pipelined msgs) :
    msgs.flatMap Message.text ≠ [] := by
  obtain ⟨m, rest, rfl⟩ := List.exists_cons_of_ne_nil hmsgs.ne
  rw [List.flatMap_cons]
  exact List.append_ne_nil_of_left_ne_nil (text_ne m) _

/-- Requests that arrive at once make their calls. -/
theorem httpParserExecute_messages {msgs : List Message} (hmsgs : Message.Pipelined msgs)
    (hp : AtStart p) :
    (httpParserExecute p (msgs.flatMap Message.text)).1.errno = none ∧
      (httpParserExecute p (msgs.flatMap Message.text)).2 = msgs.flatMap Message.calls := by
  have hstart : Exec.start p = { parser := p } := by
    unfold Exec.start
    rw [hp.state]
    rfl
  obtain ⟨e', hrun, hout⟩ := runs_messages [] hmsgs hp
  have heq : execBytes (msgs.flatMap Message.text) (.start p) = e' := by rw [hstart]; exact hrun.eq
  rw [httpParserExecute_of_none hp.errno (texts_ne hmsgs) (by rw [heq]; exact hrun.stop), heq]
  exact ⟨hrun.stop, hout⟩

end H2ClientProxy
