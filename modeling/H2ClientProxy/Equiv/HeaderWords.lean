import H2ClientProxy.HttpParser.Message

/-!
# The words of a header

The parser finds the fields that frame the body letter by letter, while it reads them: `index` counts the
letters of the word that is being matched.

* `NameWord` and `ValueWord`: the words it looks for in a name and in a value.
* `nameState_done`: at the end of a name it knows which of the words the name was.
* `valueState_done`: so does it at the end of a value, where blanks behind the word do not count.
-/

namespace H2ClientProxy

/-! ### One letter -/

/-- One more letter: the word goes on, it is there, or it is another one. -/
theorem matchWord_cases {word w : Bytes} {c : UInt8} {i : ℕ} (hw : w <+: word) (hi : w.length = i)
    (hc : c ≠ 0) (going done : HeaderState) :
    matchWord word i c going done = .general ∨
      (matchWord word i c going done = done ∧ w ++ [c] = word) ∨
      (matchWord word i c going done = going ∧ w ++ [c] <+: word) := by
  obtain ⟨rest, rfl⟩ := hw
  subst hi
  unfold matchWord
  cases rest with
  | nil =>
    -- behind the whole word there is no letter
    refine Or.inl (if_pos ?_)
    simp [hc]
  | cons d rest =>
    have hd : (w ++ d :: rest).getD w.length 0 = d := by
      rw [List.getD_eq_getElem?_getD, List.getElem?_append_right le_rfl, Nat.sub_self]
      rfl
    rw [hd]
    by_cases hcd : c = d
    · subst hcd
      refine Or.inr ?_
      rw [if_neg (by simp)]
      by_cases hlast : rest = []
      · subst hlast
        exact Or.inl ⟨if_pos (by simp), rfl⟩
      · have hpos : 0 < rest.length := List.length_pos_iff.mpr hlast
        refine Or.inr ⟨if_neg (by simp; omega), rest, ?_⟩
        rw [List.append_assoc]
        rfl
    · exact Or.inl (if_pos (by simp [hcd]))

/-- The letters of the word take the parser through it. -/
theorem matchWord_run {word : Bytes} {going done : HeaderState}
    {step : HeaderState × ℕ → UInt8 → HeaderState × ℕ}
    (hstep : ∀ i ch, step (going, i) ch = (matchWord word (i + 1) (lower ch) going done, i + 1))
    {w : Bytes} {i : ℕ} (hw : word.drop (i + 1) = w.map lower) (hne : w ≠ []) :
    (w.foldl step (going, i)).1 = done := by
  induction w generalizing i with
  | nil => exact absurd rfl hne
  | cons c w ih =>
    have hlen : word.length = i + 1 + (w.length + 1) := by
      have hlen := congrArg List.length hw
      rw [List.length_drop, List.length_map, List.length_cons] at hlen
      omega
    have hget : word.getD (i + 1) 0 = lower c := by
      rw [List.getD_eq_getElem?_getD, ← List.head?_drop, hw]
      rfl
    rw [List.foldl_cons, hstep, matchWord, hget, if_neg (by simp; omega)]
    by_cases hlast : w = []
    · subst hlast
      rw [if_pos (by rw [hlen]; rfl)]
      rfl
    · have hpos : 0 < w.length := List.length_pos_iff.mpr hlast
      rw [if_neg (by omega)]
      have htail := congrArg List.tail hw
      rw [List.tail_drop] at htail
      exact ih htail hlast

/-! ### Names -/

theorem tolower_of_token : ∀ n : ℕ, n < 256 → token n.toUInt8 ≠ 0 →
    token n.toUInt8 = tolower n.toUInt8 ∧ token (token n.toUInt8) = token n.toUInt8 ∧
      n.toUInt8 ≠ ascii ' ' ∧ token n.toUInt8 ≠ ascii ' ' := by
  decide +kernel

theorem token_spec {c : UInt8} (hc : token c ≠ 0) :
    token c = tolower c ∧ token (token c) = token c ∧ c ≠ ascii ' ' ∧ token c ≠ ascii ' ' := by
  have h := tolower_of_token c.toNat c.toNat_lt
  rw [show c.toNat.toUInt8 = c from UInt8.ofNat_toNat] at h
  exact h hc

/-- The words that a name is compared with. -/
inductive NameWord where
  | connection | proxyConnection | contentLength | transferEncoding | upgrade
  deriving DecidableEq, Repr

namespace NameWord

def text : NameWord → Bytes
  | .connection => bytes "connection"
  | .proxyConnection => bytes "proxy-connection"
  | .contentLength => bytes "content-length"
  | .transferEncoding => bytes "transfer-encoding"
  | .upgrade => bytes "upgrade"

/-- The state in which the word is being matched. -/
def going : NameWord → HeaderState
  | .connection => .matchingConnection
  | .proxyConnection => .matchingProxyConnection
  | .contentLength => .matchingContentLength
  | .transferEncoding => .matchingTransferEncoding
  | .upgrade => .matchingUpgrade

/-- The state behind the word. -/
def done : NameWord → HeaderState
  | .connection | .proxyConnection => .connection
  | .contentLength => .contentLength
  | .transferEncoding => .transferEncoding
  | .upgrade => .upgrade

end NameWord

/-- The state behind the first letter of a name. -/
def firstFieldState (c : UInt8) : HeaderState :=
  if c = ascii 'c' then .c
  else if c = ascii 'p' then .matchingProxyConnection
  else if c = ascii 't' then .matchingTransferEncoding
  else if c = ascii 'u' then .matchingUpgrade
  else .general

/-- `header_state` and `index` after one more letter. -/
def nameStep (s : HeaderState × ℕ) (ch : UInt8) : HeaderState × ℕ :=
  let index := if s.1.counts then s.2 + 1 else s.2
  (nextFieldState s.1 index (token ch) ch, index)

/-- `header_state` and `index` at the end of a name. -/
def nameState : Bytes → HeaderState × ℕ
  | [] => (.general, 0)
  | c :: w => w.foldl nameStep (firstFieldState (token c), 0)

/-- What has been read of a name, in lower case. -/
structure NameReads (w : Bytes) (s : HeaderState × ℕ) : Prop where
  c : s.1 = .c → w = bytes "c" ∧ s.2 = 0
  co : s.1 = .co → w = bytes "co" ∧ s.2 = 1
  con : s.1 = .con → w = bytes "con" ∧ s.2 = 2
  going : ∀ k : NameWord, s.1 = k.going → w <+: k.text ∧ w.length = s.2 + 1
  done : ∀ k : NameWord, s.1 = k.done → ∃ k' : NameWord, k'.done = k.done ∧ w = k'.text

theorem NameReads.general (w : Bytes) (i : ℕ) : NameReads w (.general, i) where
  c := fun h => HeaderState.noConfusion h
  co := fun h => HeaderState.noConfusion h
  con := fun h => HeaderState.noConfusion h
  going := fun k h => by cases k <;> exact HeaderState.noConfusion h
  done := fun k h => by cases k <;> exact HeaderState.noConfusion h

/-- The first letters that several words share. -/
theorem NameReads.early {w : Bytes} {st : HeaderState} {i : ℕ}
    (h : (st = .c ∧ w = bytes "c" ∧ i = 0) ∨ (st = .co ∧ w = bytes "co" ∧ i = 1) ∨
      (st = .con ∧ w = bytes "con" ∧ i = 2)) : NameReads w (st, i) := by
  rcases h with ⟨rfl, rfl, rfl⟩ | ⟨rfl, rfl, rfl⟩ | ⟨rfl, rfl, rfl⟩ <;>
    exact ⟨by decide, by decide, by decide, fun k h => by cases k <;> exact HeaderState.noConfusion h,
      fun k h => by cases k <;> exact HeaderState.noConfusion h⟩

theorem NameReads.of_going {w : Bytes} {k : NameWord} {i : ℕ} (hw : w <+: k.text)
    (hi : w.length = i + 1) : NameReads w (k.going, i) where
  c := fun h => by cases k <;> exact HeaderState.noConfusion h
  co := fun h => by cases k <;> exact HeaderState.noConfusion h
  con := fun h => by cases k <;> exact HeaderState.noConfusion h
  going := fun k' h => by
    have hk : k = k' := by cases k <;> cases k' <;> first | rfl | exact HeaderState.noConfusion h
    rw [← hk]
    exact ⟨hw, hi⟩
  done := fun k' h => by cases k <;> cases k' <;> exact HeaderState.noConfusion h

theorem NameReads.of_done (k : NameWord) (i : ℕ) : NameReads k.text (k.done, i) where
  c := fun h => by cases k <;> exact HeaderState.noConfusion h
  co := fun h => by cases k <;> exact HeaderState.noConfusion h
  con := fun h => by cases k <;> exact HeaderState.noConfusion h
  going := fun k' h => by cases k <;> cases k' <;> exact HeaderState.noConfusion h
  done := fun k' h => ⟨k, h, rfl⟩

/-- One more letter of a word. -/
theorem NameReads.letter {w : Bytes} {k : NameWord} {i : ℕ} (hw : w <+: k.text) (hi : w.length = i)
    {c : UInt8} (hc : c ≠ 0) : NameReads (w ++ [c]) (matchWord k.text i c k.going k.done, i) := by
  rcases matchWord_cases hw hi hc k.going k.done with h | ⟨h, hdone⟩ | ⟨h, hgoing⟩
  · rw [h]
    exact .general _ _
  · rw [h, hdone]
    exact .of_done k i
  · rw [h]
    exact .of_going hgoing (by rw [List.length_append, hi]; rfl)

theorem NameReads.step {w : Bytes} {s : HeaderState × ℕ} {ch : UInt8} (h : NameReads w s)
    (hch : token ch ≠ 0) : NameReads (w ++ [token ch]) (nameStep s ch) := by
  obtain ⟨-, -, hblank, -⟩ := token_spec hch
  have hword : ∀ k : NameWord, s.1 = k.going → NameReads (w ++ [token ch])
      (matchWord k.text (s.2 + 1) (token ch) k.going k.done, s.2 + 1) := fun k hk =>
    .letter (h.going k hk).1 (h.going k hk).2 hch
  obtain ⟨st, i⟩ := s
  cases st with
  | general => exact .general _ _
  | c =>
    -- `connection` and `content-length` begin alike, and share the first states
    obtain ⟨hw, hi⟩ := h.c rfl
    subst hw
    obtain rfl : i = 0 := hi
    show NameReads _ (if token ch = ascii 'o' then .co else .general, 1)
    split_ifs with ho
    · rw [ho]
      exact .early (Or.inr (Or.inl ⟨rfl, rfl, rfl⟩))
    · exact .general _ _
  | co =>
    obtain ⟨hw, hi⟩ := h.co rfl
    subst hw
    obtain rfl : i = 1 := hi
    show NameReads _ (if token ch = ascii 'n' then .con else .general, 2)
    split_ifs with hn
    · rw [hn]
      exact .early (Or.inr (Or.inr ⟨rfl, rfl, rfl⟩))
    · exact .general _ _
  | con =>
    obtain ⟨hw, hi⟩ := h.con rfl
    subst hw
    obtain rfl : i = 2 := hi
    show NameReads _ (if token ch = ascii 'n' then .matchingConnection
      else if token ch = ascii 't' then .matchingContentLength else .general, 3)
    split_ifs with hn ht
    · rw [hn]
      exact .of_going (k := .connection) (by decide) rfl
    · rw [ht]
      exact .of_going (k := .contentLength) (by decide) rfl
    · exact .general _ _
  | matchingConnection => exact hword .connection rfl
  | matchingProxyConnection => exact hword .proxyConnection rfl
  | matchingContentLength => exact hword .contentLength rfl
  | matchingTransferEncoding => exact hword .transferEncoding rfl
  | matchingUpgrade => exact hword .upgrade rfl
  | connection | contentLength | transferEncoding | upgrade =>
    -- a letter behind a whole word
    show NameReads _ (if ch ≠ ascii ' ' then .general else _, i)
    rw [if_pos hblank]
    exact .general _ _
  | matchingTransferEncodingChunked | matchingConnectionKeepAlive | matchingConnectionClose
  | transferEncodingChunked | connectionKeepAlive | connectionClose =>
    -- these are states of a value, which no name reaches
    refine ⟨fun hs => HeaderState.noConfusion hs, fun hs => HeaderState.noConfusion hs,
      fun hs => HeaderState.noConfusion hs, fun k hk => ?_, fun k hk => ?_⟩ <;>
      cases k <;> exact HeaderState.noConfusion hk

theorem nameReads_first (c : UInt8) : NameReads [token c] (firstFieldState (token c), 0) := by
  unfold firstFieldState
  split_ifs with hc hp ht hu
  · rw [hc]
    exact .early (Or.inl ⟨rfl, rfl, rfl⟩)
  · rw [hp]
    exact .of_going (k := .proxyConnection) (by decide) rfl
  · rw [ht]
    exact .of_going (k := .transferEncoding) (by decide) rfl
  · rw [hu]
    exact .of_going (k := .upgrade) (by decide) rfl
  · exact .general _ _

theorem nameReads {name : Bytes} (hname : ∀ c ∈ name, token c ≠ 0) :
    NameReads (name.map token) (nameState name) := by
  cases name with
  | nil => exact .general _ _
  | cons c w =>
    have hw := (List.forall_mem_cons.mp hname).2
    have hrun : ∀ (w : Bytes) (x : Bytes) (s : HeaderState × ℕ), (∀ c ∈ w, token c ≠ 0) →
        NameReads x s → NameReads (x ++ w.map token) (w.foldl nameStep s) := by
      intro w
      induction w with
      | nil =>
        intro x s _ hs
        rw [List.map_nil, List.append_nil]
        exact hs
      | cons d w ih =>
        intro x s hw hs
        obtain ⟨hd, hw⟩ := List.forall_mem_cons.mp hw
        have hrest := ih (x ++ [token d]) (nameStep s d) hw (hs.step hd)
        rw [List.append_assoc] at hrest
        exact hrest
    exact hrun w [token c] _ hw (nameReads_first c)

/-- The letter case does not count. -/
theorem nameStep_token (s : HeaderState × ℕ) {ch : UInt8} (hch : token ch ≠ 0) :
    nameStep s (token ch) = nameStep s ch := by
  obtain ⟨-, hidem, hblank, hblank'⟩ := token_spec hch
  obtain ⟨st, i⟩ := s
  unfold nameStep nextFieldState
  rw [hidem]
  cases st <;> simp [hblank, hblank']

theorem nameState_token {name : Bytes} (hname : ∀ c ∈ name, token c ≠ 0) :
    nameState (name.map token) = nameState name := by
  cases name with
  | nil => rfl
  | cons c w =>
    obtain ⟨hc, hw⟩ := List.forall_mem_cons.mp hname
    rw [List.map_cons, nameState, nameState, (token_spec hc).2.1, List.foldl_map]
    exact List.foldl_ext _ _ _ fun s d hd => nameStep_token s (hw d hd)

/-- **At the end of a name** the parser knows which of the words it was. -/
theorem nameState_done {name : Bytes} (hname : ∀ c ∈ name, token c ≠ 0) (k : NameWord) :
    (nameState name).1 = k.done ↔ ∃ k' : NameWord, k'.done = k.done ∧ name.map token = k'.text := by
  constructor
  · exact (nameReads hname).done k
  · rintro ⟨k', hk', hword⟩
    rw [← nameState_token hname, hword, ← hk']
    cases k' <;> decide

/-- The same in terms of the names of a field. -/
theorem is_iff {f : Field} (hname : ∀ c ∈ f.field, token c ≠ 0) (k : NameWord) :
    f.is k.text = true ↔ f.field.map token = k.text := by
  have htext : k.text.map tolower = k.text := by cases k <;> decide
  have hmap : f.field.map tolower = f.field.map token :=
    List.map_congr_left fun c hc => (token_spec (hname c hc)).1.symm
  rw [Field.is, strcasecmp, beq_iff_eq, htext, hmap]

/-! ### Values -/

/-- The words that a value is compared with. -/
inductive ValueWord where
  | chunked | keepAlive | close
  deriving DecidableEq, Repr

namespace ValueWord

def text : ValueWord → Bytes
  | .chunked => bytes "chunked"
  | .keepAlive => bytes "keep-alive"
  | .close => bytes "close"

/-- The state in which the word is being matched. -/
def going : ValueWord → HeaderState
  | .chunked => .matchingTransferEncodingChunked
  | .keepAlive => .matchingConnectionKeepAlive
  | .close => .matchingConnectionClose

/-- The state behind the word. -/
def done : ValueWord → HeaderState
  | .chunked => .transferEncodingChunked
  | .keepAlive => .connectionKeepAlive
  | .close => .connectionClose

/-- The fields whose values are compared with the word. -/
def field : ValueWord → HeaderState
  | .chunked => .transferEncoding
  | .keepAlive | .close => .connection

end ValueWord

/-- `header_state` behind the first letter of a value, for the state behind the name. -/
def firstValueState (s : HeaderState) (c : UInt8) : HeaderState :=
  match s with
  | .transferEncoding => if c = ascii 'c' then .matchingTransferEncodingChunked else .general
  | .connection =>
    if c = ascii 'k' then .matchingConnectionKeepAlive
    else if c = ascii 'c' then .matchingConnectionClose
    else .general
  | _ => .general

/-- `header_state` and `index` after one more letter of a value that is not a length. -/
def valueStep (s : HeaderState × ℕ) (ch : UInt8) : HeaderState × ℕ :=
  match s.1 with
  | .general => s
  | .matchingTransferEncodingChunked =>
    (matchWord (bytes "chunked") (s.2 + 1) (lower ch) s.1 .transferEncodingChunked, s.2 + 1)
  | .matchingConnectionKeepAlive =>
    (matchWord (bytes "keep-alive") (s.2 + 1) (lower ch) s.1 .connectionKeepAlive, s.2 + 1)
  | .matchingConnectionClose =>
    (matchWord (bytes "close") (s.2 + 1) (lower ch) s.1 .connectionClose, s.2 + 1)
  | .transferEncodingChunked | .connectionKeepAlive | .connectionClose =>
    if ch ≠ ascii ' ' then (.general, s.2) else s
  | _ => (.general, s.2)

/-- `header_state` and `index` at the end of a value, for the state behind the name. -/
def valueState (s : HeaderState) : Bytes → HeaderState × ℕ
  | [] => (.general, 0)
  | c :: w => w.foldl valueStep (firstValueState s (lower c), 0)

variable {k : ValueWord} {i : ℕ} {ch : UInt8} {v w : Bytes} {s : HeaderState × ℕ}

theorem valueStep_going (k : ValueWord) (i : ℕ) (ch : UInt8) :
    valueStep (k.going, i) ch = (matchWord k.text (i + 1) (lower ch) k.going k.done, i + 1) := by
  cases k <;> rfl

theorem valueStep_done (k : ValueWord) (i : ℕ) (ch : UInt8) :
    valueStep (k.done, i) ch = if ch ≠ ascii ' ' then (.general, i) else (k.done, i) := by
  cases k <;> rfl

/-- What has been read of a value, in lower case; `f` is the state behind the name. -/
structure ValueReads (f : HeaderState) (v : Bytes) (s : HeaderState × ℕ) : Prop where
  going : ∀ k : ValueWord, s.1 = k.going →
    k.field = f ∧ v.map lower <+: k.text ∧ v.length = s.2 + 1
  done : ∀ k : ValueWord, s.1 = k.done →
    k.field = f ∧ (v.rdropWhile (· = ascii ' ')).map lower = k.text

variable {f : HeaderState}

theorem ValueReads.general (f : HeaderState) (v : Bytes) (i : ℕ) : ValueReads f v (.general, i) where
  going := fun k h => by cases k <;> exact HeaderState.noConfusion h
  done := fun k h => by cases k <;> exact HeaderState.noConfusion h

theorem ValueReads.of_going (hf : k.field = f) (hv : v.map lower <+: k.text) (hi : v.length = i + 1) :
    ValueReads f v (k.going, i) where
  going := fun k' h => by
    have hk : k = k' := by cases k <;> cases k' <;> first | rfl | exact HeaderState.noConfusion h
    rw [← hk]
    exact ⟨hf, hv, hi⟩
  done := fun k' h => by cases k <;> cases k' <;> exact HeaderState.noConfusion h

theorem ValueReads.of_done (hf : k.field = f) (hv : (v.rdropWhile (· = ascii ' ')).map lower = k.text)
    (i : ℕ) : ValueReads f v (k.done, i) where
  going := fun k' h => by cases k <;> cases k' <;> exact HeaderState.noConfusion h
  done := fun k' h => by
    have hk : k = k' := by cases k <;> cases k' <;> first | rfl | exact HeaderState.noConfusion h
    rw [← hk]
    exact ⟨hf, hv⟩

theorem lower_ne_zero (ch : UInt8) : lower ch ≠ 0 := by
  have hall : ∀ n : ℕ, n < 256 → lower n.toUInt8 ≠ 0 := by decide +kernel
  have h := hall ch.toNat ch.toNat_lt
  rwa [show ch.toNat.toUInt8 = ch from UInt8.ofNat_toNat] at h

/-- There are no blanks in the words. -/
theorem text_lower_ne_blank (hch : lower ch ∈ k.text) : ch ≠ ascii ' ' := by
  rintro rfl
  cases k <;> exact absurd hch (by decide)

theorem ValueReads.step (h : ValueReads f v s) (ch : UInt8) : ValueReads f (v ++ [ch]) (valueStep s ch) := by
  obtain ⟨st, i⟩ := s
  have hgoing : ∀ k : ValueWord, st = k.going → ValueReads f (v ++ [ch]) (valueStep (st, i) ch) := by
    rintro k rfl
    obtain ⟨hf, hv, hi⟩ := h.going k rfl
    rw [valueStep_going]
    rcases matchWord_cases hv (by rw [List.length_map, hi]) (lower_ne_zero ch) k.going k.done with
      hm | ⟨hm, hdone⟩ | ⟨hm, hprefix⟩
    · rw [hm]
      exact .general _ _ _
    · rw [hm]
      refine .of_done hf ?_ _
      have hblank : ch ≠ ascii ' ' := text_lower_ne_blank (k := k) (by rw [← hdone]; simp)
      rw [List.rdropWhile_concat_neg _ _ _ (by simp [hblank]), List.map_append]
      exact hdone
    · rw [hm]
      refine .of_going hf ?_ (by rw [List.length_append, hi]; rfl)
      rw [List.map_append]
      exact hprefix
  have hdone : ∀ k : ValueWord, st = k.done → ValueReads f (v ++ [ch]) (valueStep (st, i) ch) := by
    rintro k rfl
    obtain ⟨hf, hv⟩ := h.done k rfl
    rw [valueStep_done]
    split_ifs with hblank
    · exact .general _ _ _
    · refine .of_done hf ?_ _
      rw [List.rdropWhile_concat_pos _ _ _ (by simpa using hblank)]
      exact hv
  cases st with
  | matchingTransferEncodingChunked => exact hgoing .chunked rfl
  | matchingConnectionKeepAlive => exact hgoing .keepAlive rfl
  | matchingConnectionClose => exact hgoing .close rfl
  | transferEncodingChunked => exact hdone .chunked rfl
  | connectionKeepAlive => exact hdone .keepAlive rfl
  | connectionClose => exact hdone .close rfl
  | _ => exact .general _ _ _

theorem valueReads_first (f : HeaderState) (c : UInt8) :
    ValueReads f [c] (firstValueState f (lower c), 0) := by
  unfold firstValueState
  cases f with
  | transferEncoding =>
    dsimp only
    split_ifs with hc
    · exact .of_going (k := .chunked) rfl (by rw [List.map_singleton, hc]; decide) rfl
    · exact .general _ _ _
  | connection =>
    dsimp only
    split_ifs with hk hc
    · exact .of_going (k := .keepAlive) rfl (by rw [List.map_singleton, hk]; decide) rfl
    · exact .of_going (k := .close) rfl (by rw [List.map_singleton, hc]; decide) rfl
    · exact .general _ _ _
  | _ => exact .general _ _ _

theorem valueReads (f : HeaderState) (v : Bytes) : ValueReads f v (valueState f v) := by
  cases v with
  | nil => exact .general _ _ _
  | cons c w =>
    have hrun : ∀ (w x : Bytes) (s : HeaderState × ℕ), ValueReads f x s →
        ValueReads f (x ++ w) (w.foldl valueStep s) := by
      intro w
      induction w with
      | nil =>
        intro x s hs
        rw [List.append_nil]
        exact hs
      | cons d w ih =>
        intro x s hs
        have hrest := ih (x ++ [d]) (valueStep s d) (hs.step d)
        rw [List.append_assoc] at hrest
        exact hrest
    exact hrun w [c] _ (valueReads_first f c)

theorem foldl_blanks {b : Bytes} (hb : ∀ c ∈ b, c = ascii ' ') (hs : s.1 = k.done) :
    (b.foldl valueStep s).1 = k.done := by
  induction b generalizing s with
  | nil => exact hs
  | cons c b ih =>
    obtain ⟨hc, hb⟩ := List.forall_mem_cons.mp hb
    refine ih hb ?_
    obtain ⟨st, i⟩ := s
    obtain rfl : st = k.done := hs
    rw [valueStep_done, if_neg (by simp [hc])]

theorem firstValueState_word (hch : k.text.head? = some (lower ch)) :
    firstValueState k.field (lower ch) = k.going := by
  have hc : lower ch = k.text.headD 0 := by
    rw [List.headD_eq_head?_getD, hch]
    rfl
  rw [hc]
  cases k <;> decide

/-- **At the end of a value** the parser knows which of the words it was. -/
theorem valueState_done (f : HeaderState) (v : Bytes) (k : ValueWord) : (valueState f v).1 = k.done ↔
    k.field = f ∧ (v.rdropWhile (· = ascii ' ')).map lower = k.text := by
  constructor
  · exact (valueReads f v).done k
  · rintro ⟨rfl, hv⟩
    have hsplit : v.rdropWhile (· = ascii ' ') ++ v.rtakeWhile (· = ascii ' ') = v :=
      List.rdropWhile_append_rtakeWhile
    generalize hb : v.rtakeWhile (· = ascii ' ') = b at hsplit
    generalize v.rdropWhile (· = ascii ' ') = a at hv hsplit
    subst hsplit
    cases a with
    | nil => cases k <;> exact absurd hv (by decide)
    | cons c w =>
      show ((w ++ b).foldl valueStep _).1 = k.done
      rw [List.foldl_append, firstValueState_word (by rw [← hv]; rfl)]
      have hlen : 1 < k.text.length := by cases k <;> decide
      have hne : w ≠ [] := by
        rintro rfl
        rw [← hv] at hlen
        exact absurd hlen (by simp)
      refine foldl_blanks (fun d hd => ?_)
        (matchWord_run (valueStep_going k) (by rw [← hv]; rfl) hne)
      rw [← hb] at hd
      have hblank : decide (d = ascii ' ') = true :=
        List.mem_rtakeWhile_imp (p := fun c => decide (c = ascii ' ')) hd
      exact of_decide_eq_true hblank

/-- `LOWER` is `tolower` on the letters of the words; it also maps `'\r'` to `'-'`. -/
theorem lower_eq_tolower {c : UInt8} (hc : c ≠ cr)
    (hletter : lower c ∈ k.text ∨ tolower c ∈ k.text) : lower c = tolower c := by
  have hall : ∀ n : ℕ, n < 256 → n.toUInt8 ≠ cr →
      lower n.toUInt8 ∈ k.text ∨ tolower n.toUInt8 ∈ k.text → lower n.toUInt8 = tolower n.toUInt8 := by
    cases k <;> decide +kernel
  have h := hall c.toNat c.toNat_lt
  rw [show c.toNat.toUInt8 = c from UInt8.ofNat_toNat] at h
  exact h hc hletter

/-- The same in terms of the value of a field. -/
theorem reads_iff {f : Field} (hv : ∀ c ∈ f.value, c ≠ cr) (k : ValueWord) :
    f.reads k.text = true ↔ (f.value.rdropWhile (· = ascii ' ')).map lower = k.text := by
  have htext : k.text.map tolower = k.text := by cases k <;> decide
  have hcr : ∀ c ∈ f.value.rdropWhile (· = ascii ' '), c ≠ cr := fun c hc =>
    hv c ((List.rdropWhile_prefix _ _).subset hc)
  rw [Field.reads, strcasecmp, beq_iff_eq, htext]
  constructor
  · intro h
    rw [← h]
    exact List.map_congr_left fun c hc =>
      lower_eq_tolower (hcr c hc) (Or.inr (by rw [← h]; exact List.mem_map_of_mem hc))
  · intro h
    rw [← h]
    exact List.map_congr_left fun c hc =>
      (lower_eq_tolower (hcr c hc) (Or.inl (by rw [← h]; exact List.mem_map_of_mem hc))).symm

end H2ClientProxy
