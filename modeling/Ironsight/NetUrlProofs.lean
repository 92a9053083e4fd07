import Ironsight.NetUrl

/-! What is printed is read again: the escapes byte by byte, then the parts of a URL from the last
one to the first. -/
namespace Ironsight.NetUrl
open LiveProxy (Bytes bytes slash percent questionMark numberSign upperHex containsCTLByte cut)
open Uuid (unhex lower)

variable {mode : Encoding} {c mark : UInt8} {s t before after : Bytes} {isIPv6 : Bytes → Bool}

/-! ## Bytes -/

/-- What holds of all 256 bytes holds of a byte. -/
private theorem byte_all {p : UInt8 → Prop} (all : ∀ n : Fin 256, p (UInt8.ofNat n)) (c : UInt8) : p c := by
  have found := all ⟨c.toNat, c.toNat_lt⟩
  rwa [UInt8.ofNat_toNat] at found

/-- The bytes that the text of a host may stand for. -/
def isHostByte (c : UInt8) : Bool := 128 ≤ c.toNat || !shouldEscape c .host || c = percent || c = blank

/-- A byte is read as it is printed. -/
def Reads (mode : Encoding) (c : UInt8) : Prop :=
  shouldEscape c mode = false ∨ decode mode (upperHex (c.toNat / 16)) (upperHex (c.toNat % 16)) = some c

instance : Decidable (Reads mode c) := inferInstanceAs (Decidable (_ ∨ _))

private theorem unhex_upperHex {n : Nat} (digit : n < 16) : unhex (upperHex n) = some n := by
  have all : ∀ n : Fin 16, unhex (upperHex n) = some n.val := by decide
  exact all ⟨n, digit⟩

private theorem decode_upperHex (mode : Encoding) (c : UInt8) :
    decode mode (upperHex (c.toNat / 16)) (upperHex (c.toNat % 16)) =
    match mode with
    | .host => if c.toNat / 16 < 8 ∧ c ≠ percent then none else some c
    | .zone => if c ≠ percent ∧ c ≠ blank ∧ shouldEscape c .host then none else some c
    | _ => some c := by
  have high := unhex_upperHex (n := c.toNat / 16) (Nat.div_lt_of_lt_mul c.toNat_lt)
  have low := unhex_upperHex (Nat.mod_lt c.toNat (by decide : 16 > 0))
  have whole : UInt8.ofNat (16 * (c.toNat / 16) + c.toNat % 16) = c := by rw [Nat.div_add_mod, UInt8.ofNat_toNat]
  cases mode <;> simp only [decode, high, low, Option.bind_eq_bind, Option.bind_some, whole]

theorem reads_plain (mode : Encoding) (plain : mode ≠ .host ∧ mode ≠ .zone) (c : UInt8) : Reads mode c := by
  refine .inr ?_
  rw [decode_upperHex]
  cases mode with
  | path | userPassword | fragment => rfl
  | host => exact absurd rfl plain.1
  | zone => exact absurd rfl plain.2

theorem reads_host (held : isHostByte c = true) (solid : c ≠ blank) : Reads .host c := by
  have kinds : 128 ≤ c.toNat ∨ shouldEscape c .host = false ∨ c = percent := by
    simpa [isHostByte, solid, or_assoc] using held
  rcases kinds with high | own | sign
  · refine .inr ?_
    rw [decode_upperHex]
    exact if_neg fun low => by omega
  · exact .inl own
  · refine .inr ?_
    rw [decode_upperHex]
    exact if_neg fun other => other.2 sign

private theorem percent_escapes (mode : Encoding) : shouldEscape percent mode = true := by cases mode <;> decide

private theorem upperHex_plain (n : Nat) (digit : n < 16) (mode : Encoding) :
    shouldEscape (upperHex n) mode = false ∧ isAlphanumeric (upperHex n) = true := by
  have all : ∀ n : Fin 16, ∀ mode ∈ [Encoding.path, .userPassword, .host, .zone, .fragment],
      shouldEscape (upperHex n) mode = false ∧ isAlphanumeric (upperHex n) = true := by decide +kernel
  exact all ⟨n, digit⟩ mode (by cases mode <;> decide)

/-! ## Escapes -/

private theorem unescape_cons (mode : Encoding) (c : UInt8) (s : Bytes) : unescape mode (c :: s) =
    if c = percent then
      match s with
      | high :: low :: rest =>
        match decode mode high low with
        | some v => (unescape mode rest).map (v :: ·)
        | none => none
      | _ => none
    else if isAllowed mode c then (unescape mode s).map (c :: ·)
    else none := by
  cases s with
  | nil => rfl
  | cons high s => cases s <;> rfl

theorem unescape_plain (other : c ≠ percent) (allowed : isAllowed mode c = true) (s : Bytes) :
    unescape mode (c :: s) = (unescape mode s).map (c :: ·) := by
  rw [unescape_cons, if_neg other, if_pos allowed]

theorem unescape_refused (other : c ≠ percent) (refused : isAllowed mode c = false) (s : Bytes) :
    unescape mode (c :: s) = none := by
  rw [unescape_cons, if_neg other, if_neg (Bool.eq_false_iff.mp refused)]

theorem unescape_decoded {high low v : UInt8} (decoded : decode mode high low = some v) (s : Bytes) :
    unescape mode (percent :: high :: low :: s) = (unescape mode s).map (v :: ·) := by
  rw [unescape_cons, if_pos rfl]
  dsimp only
  rw [decoded]

theorem unescape_undecoded {high low : UInt8} (none_ : decode mode high low = none) (s : Bytes) :
    unescape mode (percent :: high :: low :: s) = none := by
  rw [unescape_cons, if_pos rfl]
  dsimp only
  rw [none_]

theorem unescape_escape_append (reads : ∀ c ∈ s, Reads mode c) (t : Bytes) :
    unescape mode (escape mode s ++ t) = (unescape mode t).map (s ++ ·) := by
  induction s with
  | nil =>
    rw [show escape mode [] ++ t = t from rfl]
    cases unescape mode t <;> rfl
  | cons c s ih =>
    have rest := ih fun c held => reads c (List.mem_cons_of_mem _ held)
    rw [escape, List.flatMap_cons, ← escape, List.append_assoc]
    cases escapes : shouldEscape c mode with
    | true =>
      have decoded := (reads c List.mem_cons_self).resolve_left (by simp [escapes])
      rw [if_pos rfl, List.cons_append, List.cons_append, List.cons_append, List.nil_append, unescape_decoded decoded, rest,
        Option.map_map]
      rfl
    | false =>
      have other : c ≠ percent := by
        rintro rfl
        rw [percent_escapes] at escapes
        cases escapes
      have allowed : isAllowed mode c = true := by simp [isAllowed, escapes]
      rw [if_neg Bool.false_ne_true, List.singleton_append, unescape_plain other allowed, rest, Option.map_map]
      rfl

theorem unescape_escape (reads : ∀ c ∈ s, Reads mode c) : unescape mode (escape mode s) = some s := by
  have whole := unescape_escape_append reads []
  rw [List.append_nil] at whole
  rw [whole, show unescape mode [] = some [] from rfl, Option.map_some, List.append_nil]

theorem mem_escape (held : c ∈ escape mode s) :
    (c ∈ s ∧ shouldEscape c mode = false) ∨ c = percent ∨ isAlphanumeric c = true := by
  obtain ⟨d, own, printed⟩ := List.mem_flatMap.mp held
  split at printed
  · have high := upperHex_plain (d.toNat / 16) (Nat.div_lt_of_lt_mul d.toNat_lt) mode
    have low := upperHex_plain (d.toNat % 16) (Nat.mod_lt _ (by decide)) mode
    simp only [List.mem_cons, List.not_mem_nil, or_false] at printed
    rcases printed with rfl | rfl | rfl
    · exact .inr (.inl rfl)
    · exact .inr (.inr high.2)
    · exact .inr (.inr low.2)
  · next plain =>
    obtain rfl := List.mem_singleton.mp printed
    exact .inl ⟨own, by simpa using plain⟩

theorem notMem_escape (escapes : shouldEscape c mode = true) (other : c ≠ percent) : c ∉ escape mode s := by
  intro held
  rcases mem_escape held with ⟨_, plain⟩ | same | alphanumeric
  · exact nomatch escapes.symm.trans plain
  · exact other same
  · unfold shouldEscape at escapes
    rw [if_pos alphanumeric] at escapes
    cases escapes

theorem escape_append (s t : Bytes) : escape mode (s ++ t) = escape mode s ++ escape mode t := List.flatMap_append

theorem escape_plain (plain : ∀ c ∈ s, shouldEscape c mode = false) : escape mode s = s := by
  induction s with
  | nil => rfl
  | cons c s ih =>
    rw [escape, List.flatMap_cons, ← escape, ih fun c held => plain c (List.mem_cons_of_mem _ held), plain c List.mem_cons_self]
    rfl

private theorem unhex_lt {digit : UInt8} {n : Nat} (read : unhex digit = some n) : n < 16 := by
  unfold unhex at read
  dsimp only at read
  split at read
  · cases read
    omega
  · split at read
    · cases read
      omega
    · split at read
      · cases read
        omega
      · cases read

private theorem decode_host {high low : UInt8} (hosted : mode = .host ∨ mode = .zone) (read : decode mode high low = some c) :
    isHostByte c = true ∧ (mode = .host → 128 ≤ c.toNat ∨ c = percent) := by
  unfold decode at read
  obtain ⟨h, highDigit, read⟩ := Option.bind_eq_some_iff.mp read
  obtain ⟨l, lowDigit, read⟩ := Option.bind_eq_some_iff.mp read
  rcases hosted with rfl | rfl
  · dsimp only at read
    split at read
    · cases read
    · next kept =>
      obtain rfl := Option.some.inj read
      have large : 128 ≤ (UInt8.ofNat (16 * h + l)).toNat ∨ UInt8.ofNat (16 * h + l) = percent := by
        by_cases same : UInt8.ofNat (16 * h + l) = percent
        · exact .inr same
        · refine .inl ?_
          have first : 8 ≤ h := by
            by_contra small
            exact kept ⟨by omega, same⟩
          have second := unhex_lt highDigit
          have third := unhex_lt lowDigit
          rw [UInt8.toNat_ofNat', Nat.mod_eq_of_lt (by omega)]
          omega
      refine ⟨?_, fun _ => large⟩
      rcases large with large | same
      · rw [isHostByte, decide_eq_true large]
        rfl
      · rw [same]
        decide
  · dsimp only at read
    split at read
    · cases read
    · next kept =>
      obtain rfl := Option.some.inj read
      refine ⟨?_, nofun⟩
      generalize UInt8.ofNat (16 * h + l) = v at kept ⊢
      by_cases same : v = percent
      · subst same
        decide
      · by_cases space : v = blank
        · subst space
          decide
        · have plain : shouldEscape v .host = false := Bool.eq_false_iff.mpr fun escapes => kept ⟨same, space, escapes⟩
          rw [isHostByte, plain]
          simp

/-- The text of a host or of a zone. -/
theorem unescape_host (hosted : mode = .host ∨ mode = .zone) (read : unescape mode s = some t) :
    ∀ c ∈ t, isHostByte c = true ∧ (mode = .host → 128 ≤ c.toNat ∨ c = percent ∨ c ∈ s) := by
  induction s using unescape.induct mode generalizing t with
  | case1 =>
    cases read
    exact fun c held => nomatch held
  | case2 high low rest v decoded ih =>
    rw [unescape_decoded decoded] at read
    obtain ⟨t, later, rfl⟩ := Option.map_eq_some_iff.mp read
    intro c held
    rcases List.mem_cons.mp held with rfl | held
    · have own := decode_host hosted decoded
      exact ⟨own.1, fun host => (own.2 host).imp_right .inl⟩
    · have found := ih later c held
      exact ⟨found.1, fun host => (found.2 host).imp_right (.imp_right fun own => by simp [own])⟩
  | case3 high low rest none_ =>
    rw [unescape_undecoded none_] at read
    cases read
  | case4 rest short =>
    have none_ : unescape mode (percent :: rest) = none := by
      cases rest with
      | nil => rfl
      | cons high rest =>
        cases rest with
        | nil => rfl
        | cons low rest => exact (short high low rest rfl).elim
    rw [none_] at read
    cases read
  | case5 c rest other allowed ih =>
    rw [unescape_plain other allowed] at read
    obtain ⟨t, later, rfl⟩ := Option.map_eq_some_iff.mp read
    intro d held
    rcases List.mem_cons.mp held with rfl | held
    · have kept : 128 ≤ d.toNat ∨ shouldEscape d mode = false := by
        rcases hosted with rfl | rfl <;> simpa [isAllowed, Nat.not_lt, or_iff_not_imp_left] using allowed
      have hostMode : shouldEscape d mode = shouldEscape d .host := by
        rcases hosted with rfl | rfl
        · rfl
        · simp [shouldEscape]
      rw [hostMode] at kept
      refine ⟨?_, fun _ => .inr (.inr List.mem_cons_self)⟩
      rcases kept with large | plain
      · rw [isHostByte, decide_eq_true large]
        rfl
      · rw [isHostByte, plain]
        simp
    · have found := ih later d held
      exact ⟨found.1, fun host => (found.2 host).imp_right (.imp_right (List.mem_cons_of_mem _))⟩
  | case6 c rest other refused =>
    rw [unescape_refused other (by simpa using refused)] at read
    cases read

/-- A byte that is no digit of an escape stays where it is. -/
theorem unescape_cut (other : mark ≠ percent) (noDigit : unhex mark = none)
    (read : unescape mode (before ++ mark :: after) = some t) :
    ∃ before' after', unescape mode before = some before' ∧ unescape mode after = some after' ∧ t = before' ++ mark :: after' := by
  induction before using unescape.induct mode generalizing t with
  | case1 =>
    rw [List.nil_append] at read
    cases allowed : isAllowed mode mark with
    | true =>
      rw [unescape_plain other allowed] at read
      obtain ⟨after', second, rfl⟩ := Option.map_eq_some_iff.mp read
      exact ⟨[], after', rfl, second, rfl⟩
    | false =>
      rw [unescape_refused other allowed] at read
      cases read
  | case2 high low rest v decoded ih =>
    rw [List.cons_append, List.cons_append, List.cons_append, unescape_decoded decoded] at read
    obtain ⟨t, later, rfl⟩ := Option.map_eq_some_iff.mp read
    obtain ⟨before', after', first, second, rfl⟩ := ih later
    refine ⟨v :: before', after', ?_, second, rfl⟩
    rw [unescape_decoded decoded, first, Option.map_some]
  | case3 high low rest none_ =>
    rw [List.cons_append, List.cons_append, List.cons_append, unescape_undecoded none_] at read
    cases read
  | case4 rest short =>
    exfalso
    cases rest with
    | nil =>
      rw [List.singleton_append] at read
      cases after with
      | nil => cases read
      | cons low after =>
        have none_ : decode mode mark low = none := by
          unfold decode
          rw [noDigit]
          rfl
        rw [unescape_undecoded none_] at read
        cases read
    | cons high rest =>
      cases rest with
      | nil =>
        have none_ : decode mode high mark = none := by
          unfold decode
          cases unhex high with
          | none => rfl
          | some h => rw [noDigit]; rfl
        rw [List.cons_append, List.singleton_append, unescape_undecoded none_] at read
        cases read
      | cons low rest => exact short high low rest rfl
  | case5 c rest other' allowed ih =>
    rw [List.cons_append, unescape_plain other' allowed] at read
    obtain ⟨t, later, rfl⟩ := Option.map_eq_some_iff.mp read
    obtain ⟨before', after', first, second, rfl⟩ := ih later
    refine ⟨c :: before', after', ?_, second, rfl⟩
    rw [unescape_plain other' allowed, first, Option.map_some]
  | case6 c rest other' refused =>
    rw [List.cons_append, unescape_refused other' (by simpa using refused)] at read
    cases read

/-! ## Cuts -/

theorem cutLast_none (absent : mark ∉ s) : cutLast mark s = none := by
  induction s with
  | nil => rfl
  | cons c s ih =>
    have other : c ≠ mark := fun same => absent (same ▸ List.mem_cons_self)
    rw [cutLast, ih fun held => absent (List.mem_cons_of_mem _ held)]
    exact if_neg other

theorem cutLast_append (absent : mark ∉ after) (before : Bytes) :
    cutLast mark (before ++ mark :: after) = some (before, after) := by
  induction before with
  | nil =>
    rw [List.nil_append, cutLast, cutLast_none absent]
    exact if_pos rfl
  | cons c before ih => rw [List.cons_append, cutLast, ih]

theorem cutLast_cases (mark : UInt8) (s : Bytes) :
    (mark ∉ s ∧ cutLast mark s = none) ∨ ∃ before after, s = before ++ mark :: after ∧ mark ∉ after ∧ cutLast mark s = some (before, after) := by
  induction s with
  | nil => exact .inl ⟨List.not_mem_nil, rfl⟩
  | cons c s ih =>
    rcases ih with ⟨absent, _⟩ | ⟨before, after, rfl, absent, _⟩
    · by_cases same : c = mark
      · subst same
        exact .inr ⟨[], s, rfl, absent, cutLast_append absent []⟩
      · have none_ : mark ∉ c :: s := by simp [Ne.symm same, absent]
        exact .inl ⟨none_, cutLast_none none_⟩
    · exact .inr ⟨c :: before, after, rfl, absent, cutLast_append absent (c :: before)⟩

theorem cutLast_unique {before' after' : Bytes} (absent : mark ∉ after) (absent' : mark ∉ after')
    (same : before ++ mark :: after = before' ++ mark :: after') : before = before' ∧ after = after' := by
  have cuts := cutLast_append absent before
  rw [same, cutLast_append absent'] at cuts
  obtain ⟨front, back⟩ := Prod.mk.inj (Option.some.inj cuts)
  exact ⟨front.symm, back.symm⟩

theorem cut_none (absent : mark ∉ s) : cut mark s = (s, []) := by
  have other : ∀ c ∈ s, decide (c ≠ mark) = true := fun c held => decide_eq_true fun same => absent (same ▸ held)
  rw [cut, List.takeWhile_eq_self_iff.mpr other, List.dropWhile_eq_nil_iff.mpr other]
  rfl

theorem cut_append (absent : mark ∉ before) (after : Bytes) : cut mark (before ++ mark :: after) = (before, after) := by
  have other : ∀ c ∈ before, decide (c ≠ mark) = true := fun c held => decide_eq_true fun same => absent (same ▸ held)
  rw [cut, List.takeWhile_append_of_pos other, List.dropWhile_append_of_pos other, List.takeWhile_cons_of_neg (by simp),
    List.dropWhile_cons_of_neg (by simp), List.append_nil]
  rfl

/-! ## Hosts -/

/-- Digits as `strconv.Itoa` writes them. -/
def Digits (port : Bytes) : Prop := ∀ c ∈ port, isDigit c = true

private theorem digit_byte (digit : isDigit c = true) : (∀ mode ∈ [Encoding.host, .zone], shouldEscape c mode = false) ∧
    c ≠ colon ∧ c ≠ opening ∧ c ≠ closing ∧ c ≠ blank ∧ isHostByte c = true := by
  have all : ∀ c : UInt8, isDigit c = true → (∀ mode ∈ [Encoding.host, .zone], shouldEscape c mode = false) ∧ c ≠ colon ∧
      c ≠ opening ∧ c ≠ closing ∧ c ≠ blank ∧ isHostByte c = true := byte_all (by decide +kernel)
  exact all c digit

theorem validOptionalPort_cases {port : Bytes} (valid : validOptionalPort port = true) :
    port = [] ∨ ∃ digits, Digits digits ∧ port = colon :: digits := by
  cases port with
  | nil => exact .inl rfl
  | cons c digits =>
    simp only [validOptionalPort, Bool.and_eq_true, decide_eq_true_iff, List.all_eq_true] at valid
    exact .inr ⟨digits, valid.2, by rw [valid.1]⟩

theorem validOptionalPort_digits {digits : Bytes} (all : Digits digits) :
    validOptionalPort (colon :: digits) = true := by
  rw [validOptionalPort, List.all_eq_true.mpr all]
  rfl

theorem colon_notMem {digits : Bytes} (all : Digits digits) :
    colon ∉ digits := fun held => (digit_byte (all _ held)).2.1 rfl

private theorem escape_digits {digits : Bytes} (all : Digits digits) : escape .host digits = digits :=
  escape_plain fun c held => (digit_byte (all c held)).1 _ List.mem_cons_self

private theorem unescape_digits {digits : Bytes} (all : Digits digits) : unescape .host digits = some digits := by
  have reads (c : UInt8) (held : c ∈ digits) : Reads .host c := .inl ((digit_byte (all c held)).1 _ List.mem_cons_self)
  have own := unescape_escape reads
  rwa [escape_digits all] at own

private theorem unescape_port {port : Bytes} (valid : validOptionalPort port = true) :
    unescape .host port = some port := by
  rcases validOptionalPort_cases valid with rfl | ⟨digits, all, rfl⟩
  · rfl
  · rw [unescape_plain (by decide) (by decide), unescape_digits all, Option.map_some]

/-- Where a text ends with a port, that is its port. -/
theorem splitHostPort_digits {digits : Bytes} (all : Digits digits) (plain : opening ∉ s) :
    splitHostPort (s ++ colon :: digits) = (s, digits) := by
  rw [splitHostPort, cutLast_append (colon_notMem all)]
  dsimp only
  rw [if_pos (validOptionalPort_digits all)]
  dsimp only
  rw [if_neg fun both => plain (List.mem_of_head? both.1)]

theorem port_digits {digits : Bytes} (all : Digits digits) (s : Bytes) :
    (splitHostPort (s ++ colon :: digits)).2 = digits := by
  rw [splitHostPort, cutLast_append (colon_notMem all)]
  dsimp only
  rw [if_pos (validOptionalPort_digits all)]

theorem port_none (absent : colon ∉ s) : (splitHostPort s).2 = [] := by rw [splitHostPort, cutLast_none absent]

theorem port_bracket {port : Bytes} (valid : validOptionalPort port = true) (s : Bytes) :
    (splitHostPort (s ++ closing :: port)).2 = port.tail := by
  rcases validOptionalPort_cases valid with rfl | ⟨digits, all, rfl⟩
  · rcases cutLast_cases colon s with ⟨absent, _⟩ | ⟨before, after, rfl, absent, _⟩
    · exact port_none (by simpa [colon, closing] using absent)
    · have absent' : colon ∉ after ++ [closing] := by simpa [colon, closing] using absent
      have refused : validOptionalPort (colon :: (after ++ [closing])) = false := by simp [validOptionalPort, isDigit, closing]
      rw [List.append_assoc, List.cons_append, splitHostPort, cutLast_append absent']
      dsimp only
      rw [if_neg (by simp [refused])]
      rfl
  · have whole : s ++ closing :: colon :: digits = (s ++ [closing]) ++ colon :: digits := by simp
    rw [whole, port_digits all]
    rfl

/-- What a host is: an address in brackets and a port, or a text whose last part is a port. -/
structure Host (host : Bytes) : Prop where
  bytes : ∀ c ∈ host, isHostByte c = true
  port : (∃ front port, validOptionalPort port = true ∧ host = front ++ closing :: port) ∨
    ∀ before after, host = before ++ colon :: after → colon ∉ after → Digits after

/-- A text without brackets. -/
private theorem name_port {host : Bytes} (digits : ∀ before after, s = before ++ colon :: after → colon ∉ after → Digits after)
    (read : unescape .host s = some host) : Host host ∧ (splitHostPort host).2 = (splitHostPort s).2 := by
  have bytes := unescape_host (.inl rfl) read
  rcases cutLast_cases colon s with ⟨absent, _⟩ | ⟨front, port, rfl, apart, _⟩
  · have absent' : colon ∉ host := by
      intro held
      rcases (bytes colon held).2 rfl with large | same | own
      · exact absurd large (by decide)
      · exact absurd same (by decide)
      · exact absent own
    refine ⟨⟨fun c held => (bytes c held).1, .inr fun b a whole _ => ?_⟩, (port_none absent').trans (port_none absent).symm⟩
    exact absurd (whole ▸ List.mem_append_right _ List.mem_cons_self) absent'
  · have all : Digits port := digits front port rfl apart
    obtain ⟨front', port', _, second, rfl⟩ := unescape_cut (by decide) (by decide) read
    obtain rfl := Option.some.inj ((unescape_digits all).symm.trans second)
    refine ⟨⟨fun c held => (bytes c held).1, .inr fun b a whole absent => ?_⟩, (port_digits all _).trans (port_digits all _).symm⟩
    exact (cutLast_unique (colon_notMem all) absent whole).2 ▸ all

/-- An address in brackets, with its zone. -/
private theorem literal_port {address zone port : Bytes} (valid : validOptionalPort port = true)
    (addressBytes : ∀ c ∈ address, isHostByte c = true) (zoneBytes : ∀ c ∈ zone, isHostByte c = true) (literal : Bytes) :
    Host (opening :: (address ++ zone ++ closing :: port)) ∧
      (splitHostPort (opening :: (address ++ zone ++ closing :: port))).2 = (splitHostPort (literal ++ closing :: port)).2 := by
  have whole : opening :: (address ++ zone ++ closing :: port) = opening :: (address ++ zone) ++ closing :: port := rfl
  have marks : isHostByte opening = true ∧ isHostByte closing = true ∧ isHostByte colon = true := by decide
  have portBytes : ∀ c ∈ port, isHostByte c = true := by
    rcases validOptionalPort_cases valid with rfl | ⟨digits, all, rfl⟩
    · exact nofun
    · intro c held
      rcases List.mem_cons.mp held with rfl | held
      · exact marks.2.2
      · exact (digit_byte (all c held)).2.2.2.2.2
  refine ⟨⟨fun c held => ?_, .inl ⟨_, port, valid, whole⟩⟩, ?_⟩
  · simp only [List.mem_cons, List.mem_append] at held
    rcases held with rfl | (held | held) | rfl | held
    · exact marks.1
    · exact addressBytes c held
    · exact zoneBytes c held
    · exact marks.2.1
    · exact portBytes c held
  · rw [whole, port_bracket valid, port_bracket valid]

/-- A host that is read has the port that its text has. -/
theorem parseHost_port {host : Bytes} (read : parseHost isIPv6 s = some host) :
    Host host ∧ (splitHostPort host).2 = (splitHostPort s).2 := by
  unfold parseHost at read
  rcases cutLast_cases opening s with ⟨_, cut_⟩ | ⟨before, rest, _, _, cut_⟩
  · rw [cut_] at read
    dsimp only at read
    rcases cutLast_cases colon s with ⟨absent, cut'⟩ | ⟨front, port, whole, apart, cut'⟩
    · rw [cut'] at read
      exact name_port (fun b a whole _ => absurd (whole ▸ List.mem_append_right _ List.mem_cons_self) absent) read
    · rw [cut'] at read
      dsimp only at read
      split at read
      · next valid =>
        obtain ⟨digits, all, same⟩ := (validOptionalPort_cases valid).resolve_left (List.cons_ne_nil _ _)
        obtain rfl := (List.cons.inj same).2
        exact name_port (fun b a whole' absent => (cutLast_unique apart absent (whole.symm.trans whole')).2 ▸ all) read
      · cases read
  · rw [cut_] at read
    dsimp only at read
    rcases cutLast_cases closing s with ⟨_, cut'⟩ | ⟨literal, port, rfl, _, cut'⟩
    · rw [cut'] at read
      cases read
    · rw [cut'] at read
      dsimp only at read
      split at read
      · next valid =>
        rw [unescape_port valid, Option.bind_eq_bind, Option.bind_some] at read
        obtain ⟨address, first, read⟩ := Option.bind_eq_some_iff.mp read
        obtain ⟨zone, second, read⟩ := Option.bind_eq_some_iff.mp read
        split at read
        · obtain rfl := Option.some.inj read
          exact literal_port valid (fun c held => (unescape_host (.inl rfl) first c held).1)
            (fun c held => (unescape_host (.inr rfl) second c held).1) literal
        · cases read
      · cases read

theorem mem_hostname {host : Bytes} (held : c ∈ (splitHostPort host).1) : c ∈ host := by
  have inner (name : Bytes) (held : c ∈ if name.head? = some opening ∧ name.getLast? = some closing then name.tail.dropLast else name) :
      c ∈ name := by
    split at held
    · exact List.mem_of_mem_tail (List.mem_of_mem_dropLast held)
    · exact held
  unfold splitHostPort at held
  rcases cutLast_cases colon host with ⟨_, cut_⟩ | ⟨before, after, whole, _, cut_⟩
  · rw [cut_] at held
    exact inner _ held
  · rw [cut_] at held
    dsimp only at held
    split at held
    · exact whole ▸ List.mem_append_left _ (inner _ held)
    · exact inner _ held

/-- A name and a port are read as they are printed. -/
theorem parseHost_escape {name digits : Bytes} (all : Digits digits) (plain : opening ∉ name)
    (bytes : ∀ c ∈ name, isHostByte c = true ∧ c ≠ blank) :
    parseHost isIPv6 (escape .host (name ++ colon :: digits)) = some (name ++ colon :: digits) := by
  have text : escape .host (name ++ colon :: digits) = escape .host name ++ colon :: digits := by
    have mark : escape .host [colon] = [colon] := by decide
    rw [List.append_cons, escape_append, escape_append, escape_digits all, mark, List.append_assoc]
    rfl
  have noBracket : opening ∉ escape .host name ++ colon :: digits := by
    intro held
    rcases List.mem_append.mp held with front | back
    · rcases mem_escape front with ⟨own, _⟩ | same | alphanumeric
      · exact plain own
      · exact absurd same (by decide)
      · exact absurd alphanumeric (by decide)
    · rcases List.mem_cons.mp back with same | back
      · exact absurd same (by decide)
      · exact (digit_byte (all _ back)).2.2.1 rfl
  have reads : ∀ c ∈ name ++ colon :: digits, Reads .host c := by
    intro c held
    rcases List.mem_append.mp held with own | back
    · exact reads_host (bytes c own).1 (bytes c own).2
    · rcases List.mem_cons.mp back with rfl | digit
      · exact reads_host (by decide) (by decide)
      · have byte := digit_byte (all c digit)
        exact reads_host byte.2.2.2.2.2 byte.2.2.2.2.1
  have decoded := unescape_escape reads
  rw [text] at decoded ⊢
  unfold parseHost
  rw [cutLast_none noBracket]
  dsimp only
  rw [cutLast_append (colon_notMem all)]
  dsimp only
  rw [if_pos (validOptionalPort_digits all), decoded]

/-! ## Users -/

/-- A user that can be printed: without a password, none is kept. -/
def Userinfo.Kept (ui : Userinfo) : Prop := ui.passwordSet = false → ui.password = []

theorem parseUserinfo_kept {ui : Userinfo} (read : parseUserinfo s = some ui) : ui.Kept := by
  unfold parseUserinfo at read
  split at read
  · cases read
  · split at read
    · obtain ⟨username, _, read⟩ := Option.bind_eq_some_iff.mp read
      obtain ⟨password, _, read⟩ := Option.bind_eq_some_iff.mp read
      obtain rfl := Option.some.inj read
      exact nofun
    · obtain ⟨username, _, read⟩ := Option.bind_eq_some_iff.mp read
      obtain rfl := Option.some.inj read
      exact fun _ => rfl

private theorem escaped_user (s : Bytes) :
    ∀ c ∈ escape .userPassword s, (isAlphanumeric c || c ∈ bytes "-._:~!$&'()*+,;=%@") = true := by
  have all : ∀ c : UInt8, shouldEscape c .userPassword = false → (isAlphanumeric c || c ∈ bytes "-._:~!$&'()*+,;=%@") = true :=
    byte_all (by decide +kernel)
  intro c held
  rcases mem_escape held with ⟨_, plain⟩ | rfl | alphanumeric
  · exact all c plain
  · decide
  · rw [alphanumeric]
    rfl

theorem parseUserinfo_string {ui : Userinfo} (kept : ui.Kept) : parseUserinfo ui.string = some ui := by
  obtain ⟨username, password, passwordSet⟩ := ui
  have reads (s : Bytes) : unescape .userPassword (escape .userPassword s) = some s :=
    unescape_escape fun c _ => reads_plain .userPassword (by decide) c
  have noColon : colon ∉ escape .userPassword username := notMem_escape (by decide) (by decide)
  cases passwordSet with
  | true =>
    have text : Userinfo.string ⟨username, password, true⟩ = escape .userPassword username ++ colon :: escape .userPassword password := by
      simp [Userinfo.string]
    have valid : validUserinfo (escape .userPassword username ++ colon :: escape .userPassword password) = true := by
      refine List.all_eq_true.mpr fun c held => ?_
      rcases List.mem_append.mp held with first | second
      · exact escaped_user username c first
      · rcases List.mem_cons.mp second with rfl | second
        · decide
        · exact escaped_user password c second
    have held : colon ∈ escape .userPassword username ++ colon :: escape .userPassword password :=
      List.mem_append_right _ List.mem_cons_self
    rw [text, parseUserinfo, valid, if_neg (by decide), if_pos held, cut_append noColon, reads, reads]
    rfl
  | false =>
    obtain rfl := kept rfl
    have text : Userinfo.string ⟨username, [], false⟩ = escape .userPassword username := by
      cases username with
      | nil => rfl
      | cons c username => simp [Userinfo.string]
    have valid : validUserinfo (escape .userPassword username) = true := List.all_eq_true.mpr (escaped_user username)
    rw [text, parseUserinfo, valid, if_neg (by decide), if_neg noColon, reads]
    rfl

/-! ## Authorities -/

/-- A user and a host are read as they are printed, where the host is. -/
theorem parseAuthority_text {user : Option Userinfo} {host : Bytes} (kept : ∀ ui ∈ user, ui.Kept)
    (reads : parseHost isIPv6 (escape .host host) = some host) :
    parseAuthority isIPv6 ((user.elim [] fun ui => ui.string ++ [atSign]) ++ escape .host host) = some (user, host) := by
  have noAt : atSign ∉ escape .host host := notMem_escape (by decide) (by decide)
  unfold parseAuthority
  cases user with
  | none =>
    rw [Option.elim_none, List.nil_append, cutLast_none noAt]
    dsimp only
    rw [reads, Option.map_some]
  | some ui =>
    rw [Option.elim_some, List.append_assoc, List.singleton_append, cutLast_append noAt]
    dsimp only
    rw [reads, parseUserinfo_string (kept ui rfl)]
    rfl

theorem parseAuthority_kept {user : Option Userinfo} {host : Bytes} (read : parseAuthority isIPv6 s = some (user, host)) :
    (∀ ui ∈ user, ui.Kept) ∧ ∃ text, parseHost isIPv6 text = some host := by
  unfold parseAuthority at read
  split at read
  · obtain ⟨found, own, same⟩ := Option.map_eq_some_iff.mp read
    obtain ⟨rfl, rfl⟩ := Prod.mk.inj same
    exact ⟨nofun, s, own⟩
  · obtain ⟨found, own, read⟩ := Option.bind_eq_some_iff.mp read
    obtain ⟨ui, userRead, read⟩ := Option.bind_eq_some_iff.mp read
    obtain ⟨rfl, rfl⟩ := Prod.mk.inj (Option.some.inj read)
    refine ⟨?_, _, own⟩
    rintro _ ⟨⟩
    exact parseUserinfo_kept userRead

/-! ## Schemes -/

/-- The scheme of a URL that was read: small letters, digits and marks, the first one a letter. -/
structure Scheme (scheme : Bytes) : Prop where
  small : scheme.map lower = scheme
  bytes : ∀ c ∈ scheme, isSchemeByte c = true
  first : ∀ c ∈ scheme.head?, isDigit c = false ∧ c ∉ LiveProxy.bytes "+-."

private theorem lower_scheme (c : UInt8) :
    lower (lower c) = lower c ∧ (isSchemeByte c = true → isSchemeByte (lower c) = true) ∧
    (isDigit c = false ∧ c ∉ bytes "+-." → isDigit (lower c) = false ∧ lower c ∉ bytes "+-.") := by
  revert c
  exact byte_all (by decide +kernel)

theorem getScheme_scheme {scheme rest : Bytes} (read : getScheme s = some (scheme, rest)) :
    Scheme (scheme.map lower) := by
  have none_ : Scheme (([] : Bytes).map lower) := ⟨rfl, nofun, nofun⟩
  unfold getScheme at read
  split at read
  · split at read
    · cases read
    · obtain ⟨rfl, _⟩ := Prod.mk.inj (Option.some.inj read)
      exact none_
  · next first scheme' c rest' front _ =>
    split at read
    · next form =>
      obtain ⟨rfl, _⟩ := Prod.mk.inj (Option.some.inj read)
      have bytes : ∀ c ∈ first :: scheme', isSchemeByte c = true := fun c held => List.mem_takeWhile_imp (front ▸ held)
      refine ⟨?_, ?_, ?_⟩
      · rw [List.map_map]
        exact List.map_congr_left fun c _ => (lower_scheme c).1
      · intro c held
        obtain ⟨d, own, rfl⟩ := List.mem_map.mp held
        exact (lower_scheme d).2.1 (bytes d own)
      · rintro _ ⟨⟩
        exact (lower_scheme first).2.2 ⟨by simpa using form.2.1, form.2.2⟩
    · obtain ⟨rfl, _⟩ := Prod.mk.inj (Option.some.inj read)
      exact none_
  · obtain ⟨rfl, _⟩ := Prod.mk.inj (Option.some.inj read)
    exact none_

/-- A scheme in front of a slash is read as it is printed. -/
theorem getScheme_text {scheme : Bytes} (form : Scheme scheme) (t : Bytes) :
    getScheme ((if scheme = [] then [] else scheme ++ [colon]) ++ slash :: t) = some (scheme, slash :: t) := by
  cases scheme with
  | nil =>
    rw [if_pos rfl, List.nil_append, getScheme, List.takeWhile_cons_of_neg (by decide), List.dropWhile_cons_of_neg (by decide)]
    exact if_neg (by decide)
  | cons first scheme =>
    have take : ((first :: scheme) ++ colon :: slash :: t).takeWhile isSchemeByte = first :: scheme := by
      rw [List.takeWhile_append_of_pos form.bytes, List.takeWhile_cons_of_neg (by decide), List.append_nil]
    have drop : ((first :: scheme) ++ colon :: slash :: t).dropWhile isSchemeByte = colon :: slash :: t := by
      rw [List.dropWhile_append_of_pos form.bytes, List.dropWhile_cons_of_neg (by decide)]
    have whole : (first :: scheme) ++ [colon] ++ slash :: t = (first :: scheme) ++ colon :: slash :: t := by simp
    rw [if_neg (List.cons_ne_nil _ _), whole, getScheme, take, drop]
    dsimp only
    have kinds := form.first first rfl
    exact if_pos ⟨rfl, by simp [kinds.1], kinds.2⟩

/-! ## URLs that were read -/

/-- What is known of a URL with a host. -/
structure Hosted (isIPv6 : Bytes → Bool) (u : URL) : Prop where
  scheme : Scheme u.scheme
  rootless : u.opaquePart = []
  user : ∀ ui ∈ u.user, ui.Kept
  host : ∃ text, parseHost isIPv6 text = some u.host
  path : u.path = [] ∨ u.path.head? = some slash
  rawPath : u.rawPath = [] ∨ u.rawPath.head? = some slash

private theorem setPath_head {p : Bytes} {url u : URL} (head : p = [] ∨ p.head? = some slash) (read : setPath p url = some u) :
    (u.path = [] ∨ u.path.head? = some slash) ∧ (u.rawPath = [] ∨ u.rawPath.head? = some slash) ∧
      u = { url with path := u.path, rawPath := u.rawPath } := by
  obtain ⟨found, encoded, rfl⟩ := Option.map_eq_some_iff.mp read
  obtain ⟨decoded, own, rfl⟩ := Option.map_eq_some_iff.mp encoded
  refine ⟨?_, ?_, rfl⟩
  · rcases head with rfl | first
    · cases own
      exact .inl rfl
    · obtain ⟨rest, rfl⟩ := List.head?_eq_some_iff.mp first
      rw [unescape_plain (by decide) (by decide)] at own
      obtain ⟨_, _, rfl⟩ := Option.map_eq_some_iff.mp own
      exact .inr rfl
  · dsimp only
    split
    · exact .inl rfl
    · exact head

private theorem parseRest_hosted {url u : URL} {rest : Bytes} (scheme : Scheme url.scheme) (fresh : url.opaquePart = [] ∧ url.host = [])
    (read : parseRest isIPv6 url rest = some u) (given : u.host ≠ []) : Hosted isIPv6 u := by
  unfold parseRest at read
  split at read
  · obtain ⟨⟨user, host⟩, authority, read⟩ := Option.bind_eq_some_iff.mp read
    have head : ((rest.drop 2).dropWhile (· ≠ slash)) = [] ∨ ((rest.drop 2).dropWhile (· ≠ slash)).head? = some slash := by
      cases left : (rest.drop 2).dropWhile (· ≠ slash) with
      | nil => exact .inl rfl
      | cons c t =>
        have stop := List.head?_dropWhile_not (fun c => decide (c ≠ slash)) (rest.drop 2)
        rw [left] at stop
        refine .inr (congrArg some ?_)
        simpa using stop
    obtain ⟨path, rawPath, same⟩ := setPath_head head read
    have known := parseAuthority_kept authority
    rw [same]
    exact ⟨scheme, fresh.1, known.1, known.2, path, rawPath⟩
  · obtain ⟨found, _, rfl⟩ := Option.map_eq_some_iff.mp read
    exact absurd fresh.2 given

theorem parse_hosted {u : URL} (read : parse isIPv6 s = some u) (given : u.host ≠ []) : Hosted isIPv6 u := by
  obtain ⟨url, target, read⟩ := Option.bind_eq_some_iff.mp read
  have targetHosted (given : url.host ≠ []) : Hosted isIPv6 url := by
    unfold parseTarget at target
    split at target
    · cases target
    · split at target
      · obtain rfl := Option.some.inj target
        exact absurd rfl given
      · obtain ⟨⟨scheme, rest⟩, schemeRead, target⟩ := Option.bind_eq_some_iff.mp target
        have form := getScheme_scheme schemeRead
        dsimp only at target
        split at target
        · split at target
          · obtain rfl := Option.some.inj target
            exact absurd rfl given
          · split at target
            · cases target
            · exact parseRest_hosted form ⟨rfl, rfl⟩ target given
        · exact parseRest_hosted form ⟨rfl, rfl⟩ target given
  split at read
  · obtain rfl := Option.some.inj read
    exact targetHosted given
  · obtain ⟨found, _, rfl⟩ := Option.map_eq_some_iff.mp read
    have known := targetHosted given
    exact ⟨known.scheme, known.rootless, known.user, known.host, known.path, known.rawPath⟩

/-! ## URLs that are printed -/

/-- A URL without a query whose text is read as it is. -/
structure Printable (isIPv6 : Bytes → Bool) (u : URL) : Prop where
  scheme : Scheme u.scheme
  rootless : u.opaquePart = []
  user : ∀ ui ∈ u.user, ui.Kept
  given : u.host ≠ []
  host : parseHost isIPv6 (escape .host u.host) = some u.host
  path : u.path.head? = some slash
  rawPath : u.rawPath = [] ∨ u.rawPath.head? = some slash
  query : u.rawQuery = []

/-- The bytes that may stand before a query. -/
def isPrinted (c : UInt8) : Bool := !(c < 32 || c = 127) && c ≠ questionMark && c ≠ numberSign

/-- The bytes that may not stand there are escaped in every part before the fragment. -/
private theorem unprinted_byte (other : isPrinted c = false) :
    (∀ mode ∈ [Encoding.path, .userPassword, .host, .zone], shouldEscape c mode = true) ∧ isAlphanumeric c = false ∧
      isSchemeByte c = false ∧ c ∉ bytes "!$&'()*+,;=:@[]%" := by
  have all : ∀ c : UInt8, isPrinted c = false → (∀ mode ∈ [Encoding.path, .userPassword, .host, .zone], shouldEscape c mode = true) ∧
      isAlphanumeric c = false ∧ isSchemeByte c = false ∧ c ∉ bytes "!$&'()*+,;=:@[]%" := byte_all (by decide +kernel)
  exact all c other

private theorem printed_plain (front : mode ≠ .fragment) (own : shouldEscape c mode = false) : isPrinted c = true := by
  by_contra other
  have escaped := (unprinted_byte (Bool.eq_false_of_not_eq_true other)).1 mode (by cases mode <;> simp at front ⊢)
  exact Bool.noConfusion (escaped.symm.trans own)

private theorem printed_alphanumeric (own : isAlphanumeric c = true) : isPrinted c = true := by
  by_contra other
  exact Bool.noConfusion ((unprinted_byte (Bool.eq_false_of_not_eq_true other)).2.1.symm.trans own)

private theorem printed_escape (front : mode ≠ .fragment) (held : c ∈ escape mode s) : isPrinted c = true := by
  rcases mem_escape held with ⟨_, own⟩ | rfl | own
  · exact printed_plain front own
  · decide
  · exact printed_alphanumeric own

private theorem escaped_reads {raw text : Bytes} (plain : mode ≠ .host ∧ mode ≠ .zone) :
    unescape mode (URL.escaped mode raw text) = some text := by
  unfold URL.escaped
  split
  · next kept => exact kept.2.2
  · exact unescape_escape fun c _ => reads_plain mode plain c

private theorem escapedPath_eq {u : URL} (head : u.path.head? = some slash) :
    u.escapedPath = URL.escaped .path u.rawPath u.path := by
  have other : u.path ≠ bytes "*" := by
    intro same
    rw [same] at head
    exact absurd head (by decide)
  exact if_neg fun both => other both.1

private theorem escapedPath_text {u : URL} (printable : Printable isIPv6 u) :
    unescape .path u.escapedPath = some u.path ∧ u.escapedPath.head? = some slash ∧ ∀ c ∈ u.escapedPath, isPrinted c = true := by
  rw [escapedPath_eq printable.path]
  refine ⟨escaped_reads (by decide), ?_, ?_⟩
  · unfold URL.escaped
    split
    · next kept => exact printable.rawPath.resolve_left kept.1
    · obtain ⟨rest, whole⟩ := List.head?_eq_some_iff.mp printable.path
      rw [whole]
      rfl
  · have valid (c : UInt8) (kept : (c ∈ bytes "!$&'()*+,;=:@[]%" || !shouldEscape c .path) = true) : isPrinted c = true := by
      rcases Bool.or_eq_true _ _ ▸ kept with listed | own
      · by_contra other
        exact (unprinted_byte (Bool.eq_false_of_not_eq_true other)).2.2.2 (of_decide_eq_true listed)
      · exact printed_plain (by decide) (Bool.not_eq_true' _ ▸ own)
    unfold URL.escaped
    split
    · next kept => exact fun c held => valid c (List.all_eq_true.mp kept.2.1 c held)
    · exact fun c held => printed_escape (by decide) held

/-- The user and the host as they are printed. -/
private abbrev userHost (u : URL) : Bytes := (u.user.elim [] fun ui => ui.string ++ [atSign]) ++ escape .host u.host

private theorem mem_userHost {u : URL} (held : c ∈ userHost u) : isPrinted c = true ∧ c ≠ slash := by
  have part {mode : Encoding} {s : Bytes} (front : mode = .userPassword ∨ mode = .host) (held : c ∈ escape mode s) :
      isPrinted c = true ∧ c ≠ slash := by
    refine ⟨printed_escape (by rcases front with rfl | rfl <;> decide) held, ?_⟩
    rintro rfl
    exact notMem_escape (by rcases front with rfl | rfl <;> decide) (by decide) held
  rcases List.mem_append.mp held with user | host
  · cases own : u.user with
    | none =>
      rw [own] at user
      cases user
    | some ui =>
      rw [own, Option.elim_some, Userinfo.string] at user
      rcases List.mem_append.mp user with name | sign
      · split at name
        · rcases List.mem_append.mp name with username | password
          · exact part (.inl rfl) username
          · split at password
            · rcases List.mem_cons.mp password with rfl | password
              · decide
              · exact part (.inl rfl) password
            · cases password
        · cases name
      · obtain rfl := List.mem_singleton.mp sign
        decide
  · exact part (.inr rfl) host

private theorem userHost_cons {u : URL} (printable : Printable isIPv6 u) :
    ∃ c rest, userHost u = c :: rest ∧ c ≠ slash := by
  cases text : userHost u with
  | nil =>
    obtain ⟨c, host, whole⟩ := List.exists_cons_of_ne_nil printable.given
    have none_ : escape .host u.host = [] := (List.append_eq_nil_iff.mp text).2
    rw [whole, escape, List.flatMap_cons] at none_
    have first := (List.append_eq_nil_iff.mp none_).1
    split at first <;> cases first
  | cons c rest => exact ⟨c, rest, rfl, (mem_userHost (text ▸ List.mem_cons_self)).2⟩

/-- All from the authority to the query. -/
private abbrev behind (u : URL) : Bytes := slash :: slash :: (userHost u ++ u.escapedPath)

private abbrev schemeText (u : URL) : Bytes := if u.scheme = [] then [] else u.scheme ++ [colon]

private theorem string_eq {u : URL} (printable : Printable isIPv6 u) :
    u.string = (schemeText u ++ (behind u ++ if u.forceQuery then [questionMark] else [])) ++
      if u.fragment ≠ [] then numberSign :: u.escapedFragment else [] := by
  have authority : u.authority = slash :: slash :: userHost u := by simp [URL.authority, printable.given]
  have head := (escapedPath_text printable).2.1
  have hierarchy : u.hierarchy = schemeText u ++ behind u := by simp [URL.hierarchy, authority, head]
  have query : (if u.forceQuery ∨ u.rawQuery ≠ [] then questionMark :: u.rawQuery else []) =
      if u.forceQuery then [questionMark] else [] := by
    rw [printable.query]
    cases u.forceQuery <;> rfl
  rw [URL.string, query, if_neg (by simp [printable.rootless]), hierarchy]
  simp only [List.append_assoc]

private theorem mem_behind {u : URL} (printable : Printable isIPv6 u) (held : c ∈ behind u) : isPrinted c = true := by
  rcases List.mem_cons.mp held with rfl | held
  · decide
  · rcases List.mem_cons.mp held with rfl | held
    · decide
    · rcases List.mem_append.mp held with own | path
      · exact (mem_userHost own).1
      · exact (escapedPath_text printable).2.2 c path

private theorem mem_schemeText {u : URL} (printable : Printable isIPv6 u) (held : c ∈ schemeText u) :
    isPrinted c = true := by
  have known (c : UInt8) (own : isSchemeByte c = true) : isPrinted c = true := by
    by_contra other
    exact Bool.noConfusion ((unprinted_byte (Bool.eq_false_of_not_eq_true other)).2.2.1.symm.trans own)
  unfold schemeText at held
  split at held
  · cases held
  · rcases List.mem_append.mp held with own | mark
    · exact known c (printable.scheme.bytes c own)
    · obtain rfl := List.mem_singleton.mp mark
      decide

theorem cutQuery_text (plain : questionMark ∉ s) (force : Bool) :
    cutQuery (s ++ if force then [questionMark] else []) = (force, s, []) := by
  cases force with
  | true =>
    have count : (s ++ [questionMark]).count questionMark = 1 := by
      rw [List.count_append, List.count_eq_zero.mpr plain]
      decide
    rw [cutQuery, if_pos rfl, if_pos ⟨List.getLast?_concat, count⟩, List.dropLast_concat]
  | false =>
    have last : s.getLast? ≠ some questionMark := fun same => plain (List.mem_of_getLast? same)
    rw [cutQuery, if_neg Bool.false_ne_true, List.append_nil, if_neg fun both => last both.1, cut_none plain]

/-- What comes back of the URL. -/
private theorem parseRest_text {u url : URL} (printable : Printable isIPv6 u) :
    parseRest isIPv6 url (behind u) =
      setPath u.escapedPath { url with user := u.user, host := u.host } := by
  obtain ⟨c, rest, text, other⟩ := userHost_cons printable
  obtain ⟨path, whole⟩ := List.head?_eq_some_iff.mp (escapedPath_text printable).2.1
  have plain : ∀ c ∈ userHost u, decide (c ≠ slash) = true := fun c held => decide_eq_true (mem_userHost held).2
  have double : (bytes "//").isPrefixOf (behind u) = true := rfl
  have triple : ¬ (bytes "///").isPrefixOf (behind u) = true := by
    rw [behind, text]
    have signs : bytes "///" = [slash, slash, slash] := by decide
    rw [signs, List.isPrefixOf_iff_prefix, List.cons_append, List.cons_prefix_cons, List.cons_prefix_cons, List.cons_prefix_cons]
    exact fun three => other three.2.2.1.symm
  have take : (userHost u ++ u.escapedPath).takeWhile (fun c => decide (c ≠ slash)) = userHost u := by
    rw [List.takeWhile_append_of_pos plain, whole, List.takeWhile_cons_of_neg (by simp), List.append_nil]
  have drop : (userHost u ++ u.escapedPath).dropWhile (fun c => decide (c ≠ slash)) = u.escapedPath := by
    rw [List.dropWhile_append_of_pos plain, whole, List.dropWhile_cons_of_neg (by simp)]
  have read : parseAuthority isIPv6 (userHost u) = some (u.user, u.host) := parseAuthority_text printable.user printable.host
  rw [parseRest, if_pos ⟨.inr triple, double⟩]
  dsimp only [List.drop]
  rw [take, drop, read]
  rfl

private theorem parseTarget_text {u : URL} (printable : Printable isIPv6 u) :
    ∃ v, parseTarget isIPv6 (schemeText u ++ (behind u ++ if u.forceQuery then [questionMark] else [])) = some v ∧
      v.scheme = u.scheme ∧ v.user = u.user ∧ v.host = u.host ∧ v.path = u.path ∧ v.rawQuery = [] := by
  have bytes : ∀ c ∈ schemeText u ++ (behind u ++ if u.forceQuery then [questionMark] else []), isPrinted c = true ∨ c = questionMark := by
    intro c held
    rcases List.mem_append.mp held with scheme | held
    · exact .inl (mem_schemeText printable scheme)
    · rcases List.mem_append.mp held with own | query
      · exact .inl (mem_behind printable own)
      · split at query
        · exact .inr (List.mem_singleton.mp query)
        · cases query
  have noControl : containsCTLByte (schemeText u ++ (behind u ++ if u.forceQuery then [questionMark] else [])) = false := by
    refine List.any_eq_false.mpr fun c held => ?_
    rcases bytes c held with printed | rfl
    · simp only [isPrinted, Bool.and_eq_true, Bool.not_eq_true'] at printed
      simp [printed.1.1]
    · decide
  have other : schemeText u ++ (behind u ++ if u.forceQuery then [questionMark] else []) ≠ LiveProxy.bytes "*" := by
    intro same
    have held : slash ∈ schemeText u ++ (behind u ++ if u.forceQuery then [questionMark] else []) :=
      List.mem_append_right _ List.mem_cons_self
    rw [same] at held
    exact absurd held (by decide)
  have noQuery : questionMark ∉ behind u := fun held => absurd (mem_behind printable held) (by decide)
  have scheme : getScheme (schemeText u ++ (behind u ++ if u.forceQuery then [questionMark] else [])) =
      some (u.scheme, behind u ++ if u.forceQuery then [questionMark] else []) := getScheme_text printable.scheme _
  have path : setEncoded .path u.escapedPath = some (u.path, if u.escapedPath = escape .path u.path then [] else u.escapedPath) := by
    rw [setEncoded, (escapedPath_text printable).1, Option.map_some]
  rw [parseTarget, noControl, if_neg Bool.false_ne_true, if_neg other, scheme]
  dsimp only [Option.bind_eq_bind, Option.bind_some]
  rw [cutQuery_text noQuery]
  dsimp only
  rw [if_neg (by simp), parseRest_text printable, setPath, path, Option.map_some]
  exact ⟨_, rfl, printable.scheme.small, rfl, rfl, rfl, rfl⟩

/-- A URL is read as it was printed. -/
theorem parse_string {u : URL} (printable : Printable isIPv6 u) :
    ∃ v, parse isIPv6 u.string = some v ∧ v.scheme = u.scheme ∧ v.user = u.user ∧ v.host = u.host ∧ v.path = u.path ∧ v.rawQuery = [] := by
  obtain ⟨v, read, same⟩ := parseTarget_text printable
  have plain : numberSign ∉ schemeText u ++ (behind u ++ if u.forceQuery then [questionMark] else []) := by
    intro held
    rcases List.mem_append.mp held with scheme | held
    · exact absurd (mem_schemeText printable scheme) (by decide)
    · rcases List.mem_append.mp held with own | query
      · exact absurd (mem_behind printable own) (by decide)
      · split at query
        · exact absurd (List.mem_singleton.mp query) (by decide)
        · cases query
  rw [string_eq printable]
  by_cases given : u.fragment = []
  · rw [if_neg (not_not.mpr given), List.append_nil, parse, cut_none plain]
    dsimp only [Option.bind_eq_bind]
    rw [read, Option.bind_some, if_pos rfl]
    exact ⟨v, rfl, same⟩
  · rw [if_pos given, parse, cut_append plain]
    dsimp only [Option.bind_eq_bind]
    rw [read, Option.bind_some]
    split
    · exact ⟨v, rfl, same⟩
    · have fragment : unescape .fragment u.escapedFragment = some u.fragment := escaped_reads (by decide)
      rw [setFragment, setEncoded, fragment, Option.map_some, Option.map_some]
      exact ⟨_, rfl, same⟩

end Ironsight.NetUrl
