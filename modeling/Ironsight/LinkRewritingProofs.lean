import Ironsight.LinkRewriting

/-! What the rewriting makes of a page. A pass puts copies of the proxy's path into places that
only its own pattern looks at, so the matches of the other patterns stay; its own matches have the
path in front afterwards, except those that are not found again in their own text. -/
namespace Ironsight.LinkRewritingProofs
open LiveProxy (Bytes bytes slash)
open CameraCookies (webUI equals)
open LeftmostMatches Insertions LinkRewriting
open Uuid (UUID)

variable {pattern other : Pattern} {prev prev' : Option UInt8} {m : Match} {before head run rest x y : Bytes} {cameraID : UUID}

/-! ## What stands before a path -/

/-- The bytes that neither end a path nor stand between a word and one. -/
def isPlain (byte : UInt8) : Bool := !isSpace byte && byte ∉ [doubleQuote, singleQuote, equals, parenthesis, closing]

private theorem plain_slash : isPlain slash = true := by decide

private theorem stops_of_plain {byte : UInt8} (plain : isPlain byte = true) : pattern.stops byte = false := by
  simp only [isPlain, Bool.and_eq_true, decide_eq_true_eq, List.mem_cons, List.not_mem_nil, or_false, not_or] at plain
  obtain ⟨_, double, single, _, _, close⟩ := plain
  cases pattern <;> simp [Pattern.stops, double, single, close]

private theorem plain_webUI (cameraID : UUID) : ∀ byte ∈ webUI cameraID, isPlain byte = true := by
  have digit : ∀ n : Fin 256, (Uuid.unhex (UInt8.ofNat n)).isSome = true → isPlain (UInt8.ofNat n) = true := by decide +kernel
  have front : ∀ byte ∈ bytes "/api/cameras/", isPlain byte = true := by decide +kernel
  have back : ∀ byte ∈ bytes "/web-ui", isPlain byte = true := by decide +kernel
  intro byte held
  rcases List.mem_append.mp held with first | last
  · rcases List.mem_append.mp first with first | text
    · exact front byte first
    · rcases Uuid.mem_text_bytes text with rfl | some_
      · decide
      · have found := digit ⟨byte.toNat, byte.toNat_lt⟩
        rw [UInt8.ofNat_toNat] at found
        exact found some_
  · exact back byte last

private theorem head_webUI (cameraID : UUID) : (webUI cameraID).head? = some slash := rfl

/-- What a pattern has before a path, read backwards. -/
def Context (pattern : Pattern) (before : Bytes) : Prop :=
  match pattern with
  | .attrDQ | .attrSQ => ∃ quote space rest, pattern.isQuote quote = true ∧ Spaces space ∧
      before = quote :: (space ++ equals :: rest)
  | .css => ∃ quote space rest, (quote = [] ∨ ∃ byte, pattern.isQuote byte = true ∧ quote = [byte]) ∧ Spaces space ∧
      before = quote ++ (space ++ parenthesis :: rest)

/-- Where a pass of the pattern may put a copy. -/
def Opens (pattern : Pattern) (before : Bytes) (next : Option UInt8) : Prop :=
  Context pattern before ∧ (pattern = .css → ∃ byte, next = some byte ∧ pattern.stops byte = false)

private theorem spaces_reverse {space : Bytes} (spaces : Spaces space) : Spaces space.reverse :=
  fun byte held => spaces byte (List.mem_reverse.mp held)

private theorem context_of_heads (heads : Heads pattern prev head) (before : Bytes) :
    Context pattern (head.reverse ++ before) := by
  obtain ⟨word, tail, _, _, spelled, rfl⟩ := heads
  cases pattern with
  | attrDQ | attrSQ =>
    obtain ⟨first, second, quote, _, spaces, quoted, rfl⟩ := spelled
    exact ⟨quote, second.reverse, first.reverse ++ (word.reverse ++ before), quoted, spaces_reverse spaces, by simp⟩
  | css =>
    obtain ⟨space, quote, spaces, kind, rfl⟩ := spelled
    refine ⟨quote, space.reverse, word.reverse ++ before, kind, spaces_reverse spaces, ?_⟩
    rcases kind with rfl | ⟨byte, _, rfl⟩ <;> simp

/-- The first byte that is no space tells the patterns apart. -/
private theorem sign_unique {space space' rest rest' : Bytes} {sign sign' : UInt8} (spaces : Spaces space) (spaces' : Spaces space')
    (solid : isSpace sign = false) (solid' : isSpace sign' = false) (same : space ++ sign :: rest = space' ++ sign' :: rest') :
    sign = sign' := by
  have first := congrArg (List.dropWhile isSpace) same
  rw [List.dropWhile_append_of_pos spaces, List.dropWhile_append_of_pos spaces',
    List.dropWhile_cons_of_neg (by simp [solid]), List.dropWhile_cons_of_neg (by simp [solid'])] at first
  exact (List.cons.inj first).1

private theorem attr_ne_css {quote : UInt8} {space rest : Bytes} (quoted : quote = doubleQuote ∨ quote = singleQuote)
    (spaces : Spaces space) : ¬ Context .css (quote :: (space ++ equals :: rest)) := by
  rintro ⟨marks, space', rest', kind, spaces', same⟩
  rcases kind with rfl | ⟨byte, _, rfl⟩
  · have noSpaces : Spaces [] := nofun
    have first := sign_unique noSpaces spaces' (by rcases quoted with rfl | rfl <;> decide) (by decide)
      (show [] ++ quote :: (space ++ equals :: rest) = _ from same)
    rcases quoted with rfl | rfl <;> exact absurd first (by decide)
  · have first := sign_unique spaces spaces' (by decide) (by decide) (List.cons.inj same).2
    exact absurd first (by decide)

/-- No place is before a path for two patterns. -/
private theorem context_unique (one : Context pattern before) (two : Context other before) : pattern = other := by
  have quotes {byte : UInt8} {pattern : Pattern} (quoted : pattern.isQuote byte = true) :
      byte = doubleQuote ∨ byte = singleQuote := by
    cases pattern with
    | attrDQ => exact .inl (of_decide_eq_true quoted)
    | attrSQ => exact .inr (of_decide_eq_true quoted)
    | css => simpa [Pattern.isQuote] using quoted
  cases pattern with
  | css =>
    cases other with
    | css => rfl
    | attrDQ | attrSQ =>
      obtain ⟨quote, space, rest, quoted, spaces, rfl⟩ := two
      exact absurd one (attr_ne_css (quotes quoted) spaces)
  | attrDQ | attrSQ =>
    obtain ⟨quote, space, rest, quoted, spaces, rfl⟩ := one
    cases other with
    | css => exact absurd two (attr_ne_css (quotes quoted) spaces)
    | attrDQ | attrSQ =>
      obtain ⟨quote', space', rest', quoted', spaces', same⟩ := two
      obtain rfl := (List.cons.inj same).1
      have first := of_decide_eq_true quoted
      have second := of_decide_eq_true quoted'
      first | rfl | exact absurd (first.symm.trans second) (by decide)

private theorem not_context_plain {byte : UInt8} (plain : isPlain byte = true) :
    ¬ Context pattern (byte :: before) := by
  simp only [isPlain, Bool.and_eq_true, Bool.not_eq_true', decide_eq_true_eq, List.mem_cons, List.not_mem_nil, or_false,
    not_or] at plain
  obtain ⟨solid, double, single, _, open_, _⟩ := plain
  intro context
  cases pattern with
  | attrDQ =>
    obtain ⟨quote, _, _, quoted, _, same⟩ := context
    obtain rfl := (List.cons.inj same).1
    exact double (of_decide_eq_true quoted)
  | attrSQ =>
    obtain ⟨quote, _, _, quoted, _, same⟩ := context
    obtain rfl := (List.cons.inj same).1
    exact single (of_decide_eq_true quoted)
  | css =>
    obtain ⟨quote, space, rest, kind, spaces, same⟩ := context
    rcases kind with rfl | ⟨mark, quoted, rfl⟩
    · cases space with
      | nil => exact open_ (List.cons.inj same).1
      | cons first space =>
        obtain rfl := (List.cons.inj same).1
        exact nomatch solid.symm.trans (spaces byte List.mem_cons_self)
    · obtain rfl := (List.cons.inj same).1
      simp [Pattern.isQuote, double, single] at quoted

private theorem not_opens_plain : ∀ byte ∈ webUI cameraID, ∀ before next, ¬ Opens pattern (byte :: before) next :=
  fun byte held _ _ opens => not_context_plain (plain_webUI cameraID byte held) opens.1

/-! ## Matches in a text that has grown -/

private theorem head_plain (heads : Heads pattern prev head) : slash ∉ head ∧ pattern.sign ∈ head ∧ head ≠ [] := by
  obtain ⟨word, tail, listed, _, spelled, rfl⟩ := heads
  have wordSlash : slash ∉ word := by
    intro held
    have lowered : Uuid.lower slash ∈ word.map Uuid.lower := List.mem_map_of_mem held
    have none_ : ∀ word ∈ pattern.words, Uuid.lower slash ∉ word := by cases pattern <;> decide
    exact none_ _ listed lowered
  have spaceSlash {space : Bytes} (spaces : Spaces space) : slash ∉ space :=
    fun held => absurd (spaces slash held) (by decide)
  cases pattern with
  | attrDQ | attrSQ =>
    obtain ⟨first, second, quote, spaces, spaces', quoted, rfl⟩ := spelled
    obtain rfl := of_decide_eq_true quoted
    have signs : slash ≠ equals ∧ slash ≠ doubleQuote ∧ slash ≠ singleQuote := by decide
    simp [wordSlash, spaceSlash spaces, spaceSlash spaces', signs, Pattern.sign]
  | css =>
    obtain ⟨space, quote, spaces, kind, rfl⟩ := spelled
    have signs : slash ≠ parenthesis ∧ slash ≠ doubleQuote ∧ slash ≠ singleQuote := by decide
    have quoteSlash : slash ∉ quote := by
      rcases kind with rfl | ⟨byte, quoted, rfl⟩
      · exact List.not_mem_nil
      · rw [List.mem_singleton]
        rintro rfl
        exact absurd quoted (by decide)
    simp [wordSlash, spaceSlash spaces, quoteSlash, signs, Pattern.sign]

private theorem stop_ne_slash {byte : UInt8} (stops : pattern.stops byte = true) : byte ≠ slash := by
  rintro rfl
  rw [stops_of_plain plain_slash] at stops
  cases stops

private theorem given_of_ends (ends : Ends pattern run close rest) : run ≠ [] ∨ pattern ≠ .css := by
  cases pattern with
  | attrDQ | attrSQ => exact .inr (by decide)
  | css => exact .inl ends.1

private theorem slash_notMem_close (ends : Ends pattern run close rest) : slash ∉ close := by
  cases pattern with
  | attrDQ | attrSQ =>
    obtain ⟨quote, stops, rfl⟩ := ends
    exact fun held => stop_ne_slash stops (List.mem_singleton.mp held).symm
  | css =>
    obtain ⟨_, rfl, _⟩ := ends
    exact List.not_mem_nil

/-- Text of a page, and what a pass of the pattern made of it. -/
abbrev Passed (cameraID : UUID) (pattern : Pattern) : Bytes → Bytes → Bytes → Prop :=
  Grown slash (webUI cameraID) (Opens pattern)

/-- A path that has grown: the same path, or one with the copy in front. -/
private theorem path_grown {Opens : Bytes → Option UInt8 → Prop} (given : run ≠ [] ∨ pattern ≠ .css)
    (inside : ∀ byte ∈ run, pattern.stops byte = false)
    (grown : Grown slash (webUI cameraID) Opens before (slash :: run) y) :
    ∃ run', y = slash :: run' ∧ (run' ≠ [] ∨ pattern ≠ .css) ∧ ∀ byte ∈ run', pattern.stops byte = false := by
  have stops (byte : UInt8) (held : byte ∈ y) : pattern.stops byte = false := by
    rcases grown.mem_or held with own | copied
    · rcases List.mem_cons.mp own with rfl | later
      · exact stops_of_plain plain_slash
      · exact inside byte later
    · exact stops_of_plain (plain_webUI cameraID byte copied)
  cases grown with
  | @keep _ _ run' _ rest =>
    refine ⟨run', rfl, given.imp_left fun some_ none_ => some_ ?_, fun byte held => stops byte (List.mem_cons_of_mem _ held)⟩
    subst none_
    cases rest
    rfl
  | @insert _ _ run' _ rest =>
    have starts : webUI cameraID = slash :: (webUI cameraID).tail := rfl
    refine ⟨(webUI cameraID).tail ++ slash :: run', rfl, .inl (by simp), fun byte held => stops byte ?_⟩
    rw [starts]
    exact List.mem_cons_of_mem _ held

private theorem ends_grown {run' rest' : Bytes} (ends : Ends pattern run close rest) (given : run' ≠ [] ∨ pattern ≠ .css)
    (grown : Passed cameraID other before rest rest') : Ends pattern run' close rest' := by
  cases pattern with
  | attrDQ | attrSQ => exact ends
  | css =>
    obtain ⟨_, close, stops⟩ := ends
    refine ⟨given.resolve_right fun other => other rfl, close, fun byte first => ?_⟩
    cases grown with
    | nil => cases first
    | keep => exact stops byte first
    | insert => exact absurd rfl (stop_ne_slash (stops slash rfl))

/-- A match is still one when the text has grown; if it is one of another pattern than that of the
pass, its path starts as before. -/
theorem matchAt_grown (found : matchAt pattern prev (m.text ++ rest) = some m)
    (grown : Passed cameraID other before (m.text ++ rest) y) :
    ∃ m' rest', y = m'.text ++ rest' ∧ matchAt pattern prev y = some m' ∧ m'.head = m.head ∧
      m'.text.getLast? = m.text.getLast? ∧ Passed cameraID other (m.text.reverse ++ before) rest rest' ∧
      (pattern ≠ other → isLeft cameraID m'.path = isLeft cameraID m.path) := by
  obtain ⟨run, rest₁, ⟨heads, path, inside, ends⟩, whole⟩ := matchAt_iff.mp found
  obtain rfl := List.append_cancel_left whole
  have parts : m.text ++ rest = m.head ++ (m.path ++ (m.close ++ rest)) := by simp [Match.text]
  rw [parts] at grown
  obtain ⟨head', z, rfl, headGrown, grown₁⟩ := grown.split
  obtain rfl := headGrown.eq_of_notMem (head_plain heads).1
  obtain ⟨path', z', rfl, pathGrown, grown₂⟩ := grown₁.split
  obtain ⟨close', rest', rfl, closeGrown, grown₃⟩ := grown₂.split
  obtain rfl := closeGrown.eq_of_notMem (slash_notMem_close ends)
  rw [path] at pathGrown
  obtain ⟨run', rfl, given', inside'⟩ := path_grown (given_of_ends ends) inside pathGrown
  have ends' := ends_grown ends given' grown₃
  refine ⟨⟨m.head, slash :: run', m.close⟩, rest', by simp [Match.text], ?_, rfl, ?_, ?_, fun apart => ?_⟩
  · exact matchAt_iff.mpr ⟨run', rest', ⟨heads, rfl, inside', ends'⟩, by simp [Match.text]⟩
  · have last := pathGrown.getLast?_eq
    rw [← path] at last
    simp only [Match.text, List.getLast?_append, last]
  · simpa [Match.text] using grown₃
  · have closed (next : Option UInt8) : ¬ ∃ next, Opens other (m.head.reverse ++ before) next := by
      rintro ⟨_, opens⟩
      exact apart (context_unique (context_of_heads heads before) opens.1)
    have plain (byte : UInt8) (plain : isPlain byte = true) (before : Bytes) (next : Option UInt8) :
        ¬ ∃ next, Opens other (byte :: before) next := by
      rintro ⟨_, opens⟩
      exact not_context_plain plain opens.1
    have double : ∀ byte ∈ bytes "//", isPlain byte = true := by decide +kernel
    have first := pathGrown.prefix_iff closed (fun byte held => plain byte (double byte held))
    have second := pathGrown.prefix_iff closed (fun byte held => plain byte (plain_webUI cameraID byte held))
    rw [Bool.eq_iff_iff, isLeft, isLeft, Bool.or_eq_true, Bool.or_eq_true, List.isPrefixOf_iff_prefix, List.isPrefixOf_iff_prefix,
      List.isPrefixOf_iff_prefix, List.isPrefixOf_iff_prefix, path]
    exact or_congr first.symm second.symm

/-- What the text behind the slash needs for a match. -/
private def Goes (pattern : Pattern) (rest : Bytes) : Prop :=
  match pattern with
  | .attrDQ | .attrSQ => ∃ byte ∈ rest, pattern.stops byte = true
  | .css => ∃ byte, rest.head? = some byte ∧ pattern.stops byte = false

private theorem exists_match (heads : Heads pattern prev head) (goes : Goes pattern rest) :
    ∃ m, matchAt pattern prev (head ++ slash :: rest) = some m := by
  obtain ⟨run, after, rfl, inside, stop⟩ := exists_run pattern rest
  cases pattern with
  | attrDQ | attrSQ =>
    cases after with
    | nil =>
      obtain ⟨byte, held, stops⟩ := goes
      rw [List.append_nil] at held
      cases stops.symm.trans (inside byte held)
    | cons quote after =>
      exact ⟨⟨head, slash :: run, [quote]⟩, matchAt_iff.mpr ⟨run, after, ⟨heads, rfl, inside, quote, stop quote rfl, rfl⟩,
        by simp [Match.text]⟩⟩
  | css =>
    obtain ⟨byte, first, stops⟩ := goes
    have given : run ≠ [] := by
      rintro rfl
      cases stops.symm.trans (stop byte first)
    exact ⟨⟨head, slash :: run, []⟩, matchAt_iff.mpr ⟨run, after, ⟨heads, rfl, inside, given, rfl, stop⟩, by simp [Match.text]⟩⟩

/-- A pass makes no matches. -/
theorem matchAt_of_grown (found : matchAt pattern prev y = some m) (grown : Passed cameraID other before x y) :
    ∃ m', matchAt pattern prev x = some m' := by
  obtain ⟨run, rest, ⟨heads, path, inside, ends⟩, rfl⟩ := matchAt_iff.mp found
  have parts : m.text ++ rest = m.head ++ slash :: (run ++ (m.close ++ rest)) := by simp [Match.text, path]
  have goes : Goes pattern (run ++ (m.close ++ rest)) := by
    cases pattern with
    | attrDQ | attrSQ =>
      obtain ⟨quote, stops, close⟩ := ends
      exact ⟨quote, by simp [close], stops⟩
    | css =>
      obtain ⟨given, _, _⟩ := ends
      obtain ⟨byte, run, rfl⟩ := List.exists_cons_of_ne_nil given
      exact ⟨byte, rfl, inside byte List.mem_cons_self⟩
  rw [parts] at grown
  obtain ⟨x', rfl, grown'⟩ := Grown.back (head_webUI cameraID) (head_plain heads).1 grown
  clear grown
  generalize run ++ (m.close ++ rest) = w at grown' goes
  generalize whole : slash :: w = y at grown'
  have context := context_of_heads heads before
  cases grown' with
  | nil => cases whole
  | @keep _ x'' y'' _ rest_ =>
    obtain ⟨rfl, rfl⟩ := List.cons.inj whole
    refine exists_match heads ?_
    cases pattern with
    | attrDQ | attrSQ =>
      obtain ⟨quote, held, stops⟩ := goes
      rcases rest_.mem_or held with own | copied
      · exact ⟨quote, own, stops⟩
      · cases stops.symm.trans (stops_of_plain (plain_webUI cameraID quote copied))
    | css =>
      obtain ⟨byte, first, stops⟩ := goes
      have closed (next : Option UInt8) : ¬ Opens other (slash :: (m.head.reverse ++ before)) next :=
        fun opens => not_context_plain plain_slash opens.1
      rcases rest_.of_closed closed with ⟨_, rfl⟩ | ⟨_, _, _, rfl, rfl, _⟩
      · cases first
      · exact ⟨byte, first, stops⟩
  | @insert _ x'' y'' opens rest_ =>
    refine exists_match heads ?_
    obtain rfl := context_unique context opens.1
    cases pattern with
    | attrDQ | attrSQ =>
      obtain ⟨quote, held, stops⟩ := goes
      have inText : quote ∈ webUI cameraID ++ slash :: y'' := whole ▸ List.mem_cons_of_mem _ held
      rcases List.mem_append.mp inText with copied | later
      · cases stops.symm.trans (stops_of_plain (plain_webUI cameraID quote copied))
      · rcases List.mem_cons.mp later with same | later
        · exact absurd same (stop_ne_slash stops)
        · rcases rest_.mem_or later with own | copied
          · exact ⟨quote, own, stops⟩
          · cases stops.symm.trans (stops_of_plain (plain_webUI cameraID quote copied))
    | css => exact opens.2 rfl

/-! ## One pass -/

private theorem matchAt_plain {s : Bytes} (plain : ∀ byte ∈ s, isPlain byte = true) (t : Bytes) :
    matchAt pattern prev (s ++ slash :: t) = none := by
  refine Option.eq_none_iff_forall_ne_some.mpr fun m found => ?_
  obtain ⟨run, rest, ⟨heads, path, _, _⟩, whole⟩ := matchAt_iff.mp found
  obtain ⟨noSlash, signs, _⟩ := head_plain heads
  have cut : m.head ++ slash :: (run ++ (m.close ++ rest)) = s ++ slash :: t := by
    rw [whole]
    simp [Match.text, path]
  have sign_ : isPlain pattern.sign = false := by cases pattern <;> decide
  rcases List.append_eq_append_iff.mp cut with ⟨later, rfl, _⟩ | ⟨later, front, back⟩
  · cases sign_.symm.trans (plain _ (List.mem_append_left _ signs))
  · cases later with
    | nil =>
      rw [List.append_nil] at front
      cases sign_.symm.trans (plain _ (front ▸ signs))
    | cons first later =>
      obtain rfl := (List.cons.inj back).1
      exact noSlash (front ▸ List.mem_append_right _ List.mem_cons_self)

private theorem matchAt_slash (t : Bytes) : matchAt pattern prev (slash :: t) = none := by
  have nothing : ∀ byte ∈ ([] : Bytes), isPlain byte = true := nofun
  exact matchAt_plain nothing t

private theorem search_plain {s : Bytes} (plain : ∀ byte ∈ s, isPlain byte = true) (prev : Option UInt8) (t : Bytes) :
    (matcher pattern).search 0 prev (s ++ slash :: t) = (matcher pattern).search 0 (some slash) t := by
  induction s generalizing prev with
  | nil => exact Matcher.search_gap (matchAt_slash t)
  | cons byte s ih =>
    rw [List.cons_append, Matcher.search_gap (matchAt_plain plain t)]
    exact ih (fun other held => plain other (List.mem_cons_of_mem _ held)) _

/-- A pass leaves the matches of another pattern, up to copies inside their paths. -/
theorem search_of_other (apart : pattern ≠ other) (grown : Passed cameraID other before x y) :
    List.Forall₂ (fun m m' => m'.head = m.head ∧ isLeft cameraID m'.path = isLeft cameraID m.path)
      ((matcher pattern).search 0 prev x) ((matcher pattern).search 0 prev y) := by
  induction prev, x using (matcher pattern).induct generalizing before y with
  | nil =>
    cases grown
    exact .nil
  | gap prev byte t none_ ih =>
    rw [Matcher.search_gap none_]
    have missed : matchAt pattern prev y = none := by
      refine Option.eq_none_iff_forall_ne_some.mpr fun m found => ?_
      obtain ⟨m', hit⟩ := matchAt_of_grown found grown
      exact nomatch none_.symm.trans hit
    cases grown with
    | keep rest =>
      rw [Matcher.search_gap missed]
      exact ih rest
    | insert _ rest =>
      rw [search_plain (plain_webUI cameraID)]
      exact ih rest
  | hit prev m rest found ih =>
    obtain ⟨m', rest', rfl, found', head, last, grown', left⟩ := matchAt_grown found grown
    have sameLast : ((matcher pattern).text m').getLast? = ((matcher pattern).text m).getLast? := last
    have again : (matcher pattern).matchAt prev ((matcher pattern).text m' ++ rest') = some m' := found'
    have tail := Matcher.search_match again rfl
    rw [sameLast] at tail
    rw [Matcher.search_match found rfl]
    refine Eq.subst (motive := List.Forall₂ _ _) tail.symm ?_
    exact .cons ⟨head, left apart⟩ (ih grown')

/-! ## A match on its own -/

/-- Matches that start with `U+017F`, which is no word character for `\b`. -/
def isFolded (m : Match) : Bool := m.head.head? = some 197

private theorem word_of_first {byte : UInt8} {word : Bytes} (listed : (byte :: word).map Uuid.lower ∈ pattern.words) :
    byte = 197 ∨ isWord byte = true := by
  have firsts : ∀ word ∈ pattern.words, ∀ n : Fin 256, word.head? = some (Uuid.lower (UInt8.ofNat n)) →
      UInt8.ofNat n = 197 ∨ isWord (UInt8.ofNat n) = true := by
    cases pattern <;> decide +kernel
  have found := firsts _ listed ⟨byte.toNat, byte.toNat_lt⟩
  rw [UInt8.ofNat_toNat] at found
  exact found rfl

/-- A match that does not start with `U+017F` is found again in its own text. -/
private theorem find_text (parts : Parts pattern prev m run rest) (plain : isFolded m = false) :
    (matcher pattern).find none m.text = some ([], m) := by
  refine Matcher.find_match ?_ (Match.text_ne_nil parts)
  obtain ⟨⟨word, tail, listed, bounded, spelled, whole⟩, path, inside, ends⟩ := parts
  have heads : Heads pattern none m.head := by
    refine ⟨word, tail, listed, ?_, spelled, whole⟩
    cases word with
    | nil => cases bounded
    | cons byte word =>
      have first : byte ≠ 197 := by
        rintro rfl
        simp [isFolded, whole] at plain
      have word_ := (word_of_first listed).resolve_left first
      simp [boundary, word_]
  have ends' : Ends pattern run m.close [] := by
    cases pattern with
    | attrDQ | attrSQ => exact ends
    | css => exact ⟨ends.1, ends.2.1, nofun⟩
  exact matchAt_iff.mpr ⟨run, [], ⟨heads, path, inside, ends'⟩, (List.append_nil _).symm⟩

/-- What stands before a blank, an equals sign, a blank and a quote. -/
private theorem word_unique {word word' tail tail' : Bytes} (spelled : Assignment pattern tail) (spelled' : Assignment pattern tail')
    (solid : ∀ byte ∈ word.getLast?, isSpace byte = false) (solid' : ∀ byte ∈ word'.getLast?, isSpace byte = false)
    (same : word ++ tail = word' ++ tail') : word = word' := by
  obtain ⟨first, second, quote, spaces, spaces₂, _, rfl⟩ := spelled
  obtain ⟨first', second', quote', spaces', spaces₂', _, rfl⟩ := spelled'
  have backwards := congrArg List.reverse same
  simp only [List.reverse_append, List.reverse_cons, List.reverse_nil, List.nil_append, List.append_assoc,
    List.cons_append] at backwards
  have afterQuote := (List.cons.inj backwards).2
  have drop {space rest : Bytes} (spaces : Spaces space) (ends : ∀ byte ∈ rest.head?, isSpace byte = false) :
      (space.reverse ++ rest).dropWhile isSpace = rest := (takeWhile_run (spaces_reverse spaces) ends).2
  have sign {rest : Bytes} : ∀ byte ∈ (equals :: rest).head?, isSpace byte = false := by
    rintro _ ⟨⟩
    decide
  have afterSign := congrArg (List.dropWhile isSpace) afterQuote
  rw [drop spaces₂ sign, drop spaces₂' sign] at afterSign
  have words := congrArg (List.dropWhile isSpace) (List.cons.inj afterSign).2
  rw [drop spaces (by rwa [List.head?_reverse]), drop spaces' (by rwa [List.head?_reverse])] at words
  exact List.reverse_inj.mp words

private theorem word_given {word : Bytes} (listed : word.map Uuid.lower ∈ pattern.words) : word ≠ [] := by
  rintro rfl
  revert listed
  cases pattern <;> decide

private theorem last_solid {word : Bytes} (listed : word.map Uuid.lower ∈ pattern.words) (front : Bytes) :
    ∀ byte ∈ (front ++ word).getLast?, isSpace byte = false := by
  have lasts : ∀ word ∈ pattern.words, ∀ n : Fin 256, word.getLast? = some (Uuid.lower (UInt8.ofNat n)) →
      isSpace (UInt8.ofNat n) = false := by
    cases pattern <;> decide +kernel
  intro byte last
  rw [List.getLast?_append_of_ne_nil _ (word_given listed), Option.mem_def] at last
  have found := lasts _ listed ⟨byte.toNat, byte.toNat_lt⟩
  rw [UInt8.ofNat_toNat] at found
  refine found ?_
  rw [List.getLast?_map, last, Option.map_some]

/-- In the text of a match, no more than its head stands before a path. -/
private theorem head_placed {front w : Bytes} (parts : Parts pattern prev m run rest) (attr : pattern ≠ .css)
    (heads : Heads pattern prev' head) (same : front ++ (head ++ slash :: w) = m.text) : front ++ head = m.head := by
  obtain ⟨heads₁, path, inside, ends⟩ := parts
  have last : ∃ quote, head.getLast? = some quote ∧ pattern.stops quote = true := by
    obtain ⟨word, tail, _, _, spelled, rfl⟩ := heads
    cases pattern with
    | css => exact absurd rfl attr
    | attrDQ | attrSQ =>
      obtain ⟨first, second, quote, _, _, quoted, rfl⟩ := spelled
      exact ⟨quote, by simp [List.getLast?_cons], quoted⟩
  obtain ⟨quote, last, stops⟩ := last
  have short : ∃ final, m.close = [final] := by
    cases pattern with
    | css => exact absurd rfl attr
    | attrDQ | attrSQ => exact ends.imp fun _ both => both.2
  obtain ⟨final, close⟩ := short
  rw [Match.text, path, close, ← List.append_assoc, List.cons_append] at same
  rcases List.append_eq_append_iff.mp same with ⟨later, more, whole⟩ | ⟨later, more, whole⟩
  · cases later with
    | nil => rw [more, List.append_nil]
    | cons first later =>
      obtain rfl := (List.cons.inj whole).1
      exact absurd (more ▸ List.mem_append_right _ List.mem_cons_self) (head_plain heads₁).1
  · cases later with
    | nil => rw [more, List.append_nil]
    | cons first later =>
      obtain ⟨rfl, inRun⟩ := List.cons.inj whole
      -- the quote before the path would be inside the other path
      have ends_ := congrArg List.getLast? more
      rw [List.getLast?_append, last, List.getLast?_append_of_ne_nil _ (List.cons_ne_nil _ _)] at ends_
      have held : quote ∈ later := by
        have inLater := List.mem_of_getLast? ends_.symm
        exact (List.mem_cons.mp inLater).resolve_left (stop_ne_slash stops)
      have front_ : later <+: run := by
        rcases List.append_eq_append_iff.mp inRun with ⟨between, longer, rest_⟩ | ⟨between, longer, _⟩
        · have size := congrArg List.length rest_
          rw [List.length_append, List.length_cons, List.length_nil, List.length_cons] at size
          have none_ : between = [] := List.eq_nil_of_length_eq_zero (by omega)
          rw [longer, none_, List.append_nil]
        · exact ⟨between, longer.symm⟩
      cases stops.symm.trans (inside quote (front_.subset held))

/-- Nothing matches in the text of a match that starts with `U+017F`. -/
private theorem find_folded (parts : Parts pattern prev m run rest) (folded : isFolded m = true) :
    (matcher pattern).find none m.text = none := by
  obtain ⟨word, tail, listed, _, spelled, whole⟩ := parts.1
  have foldedWord : word.map Uuid.lower = bytes "ſrc" ∧ pattern ≠ .css := by
    have known : ∀ word ∈ pattern.words, word.head? = some 197 → word = bytes "ſrc" ∧ pattern ≠ .css := by
      cases pattern <;> decide
    refine known _ listed ?_
    obtain ⟨first, word, rfl⟩ := List.exists_cons_of_ne_nil (word_given listed)
    obtain rfl : first = 197 := by simpa [isFolded, whole] using folded
    rfl
  obtain ⟨lowered, attr⟩ := foldedWord
  refine Matcher.find_none fun front byte later same => Option.eq_none_iff_forall_ne_some.mpr fun m' found => ?_
  obtain ⟨run', rest', ⟨heads', path', _, _⟩, whole'⟩ := matchAt_iff.mp found
  have parts' : front ++ (m'.head ++ slash :: (run' ++ (m'.close ++ rest'))) = m.text := by
    rw [← same, whole']
    simp [Match.text, path']
  have placed := head_placed parts attr heads' parts'
  obtain ⟨word', tail', listed', bounded, spelled', headWhole⟩ := heads'
  have assignments : Assignment pattern tail ∧ Assignment pattern tail' := by
    cases pattern with
    | css => exact absurd rfl attr
    | attrDQ | attrSQ => exact ⟨spelled, spelled'⟩
  rw [headWhole, whole, ← List.append_assoc] at placed
  have words := word_unique assignments.2 assignments.1 (last_solid listed' front) (last_solid listed []) placed
  rw [List.nil_append] at words
  have ends : word'.map Uuid.lower <:+ bytes "ſrc" := by
    rw [← lowered, ← words, List.map_append]
    exact List.suffix_append _ _
  have known : ∀ word ∈ pattern.words, word <:+ bytes "ſrc" → word = bytes "ſrc" := by cases pattern <;> decide
  have sameWord := known _ listed' ends
  have none_ : front = [] := by
    have size := congrArg List.length (congrArg (List.map Uuid.lower) words)
    rw [List.map_append, List.length_append, lowered, ← sameWord, List.length_map, List.length_map] at size
    exact List.eq_nil_of_length_eq_zero (by omega)
  subst none_
  rw [List.nil_append] at words
  subst words
  -- the first byte is no word character and nothing is before it
  obtain ⟨first, word, rfl⟩ := List.exists_cons_of_ne_nil (word_given listed)
  obtain rfl : first = 197 := by simpa [isFolded, whole] using folded
  exact absurd bounded (by simp [boundary, isWord])

/-- What a pass makes of a match. -/
def fixed (cameraID : UUID) (m : Match) : Match :=
  if isFolded m || isLeft cameraID m.path then m else { m with path := webUI cameraID ++ m.path }

theorem fixMatch_text (found : matchAt pattern prev (m.text ++ rest) = some m) :
    fixMatch cameraID pattern m.text = (fixed cameraID m).text := by
  obtain ⟨run, rest₁, parts, whole⟩ := matchAt_iff.mp found
  unfold fixMatch fixed
  cases folded : isFolded m with
  | true =>
    rw [find_folded parts folded]
    rfl
  | false =>
    rw [find_text parts folded]
    dsimp only
    cases left : isLeft cameraID m.path with
    | true => rfl
    | false =>
      have take : m.text.take m.head.length = m.head := List.take_left
      have drop : m.text.drop m.head.length = m.path ++ m.close := List.drop_left
      rw [List.length_nil, Nat.zero_add, take, drop]
      simp [Match.text]

/-! ## A pass -/

/-- A pass only puts in copies, and only where its pattern has a path. -/
theorem passed_replaceAll (cameraID : UUID) (pattern : Pattern) (prev : Option UInt8) (before x : Bytes) :
    Passed cameraID pattern before x ((matcher pattern).replaceAll (fun m => fixMatch cameraID pattern m.text) 0 prev x) := by
  induction prev, x using (matcher pattern).induct generalizing before with
  | nil => exact .nil
  | gap prev byte t none_ ih =>
    rw [Matcher.replaceAll_gap none_]
    exact .keep (ih _)
  | hit prev m rest found ih =>
    rw [Matcher.replaceAll_match found rfl]
    change Passed cameraID pattern before (m.text ++ rest) (fixMatch cameraID pattern m.text ++ _)
    rw [fixMatch_text found, fixed]
    split
    · exact Grown.append m.text (ih _)
    · obtain ⟨run, rest₁, ⟨heads, path, inside, ends⟩, whole⟩ := matchAt_iff.mp found
      obtain rfl := List.append_cancel_left whole
      have next : pattern = .css → ∃ byte, (run ++ (m.close ++ rest)).head? = some byte ∧ pattern.stops byte = false := by
        rintro rfl
        obtain ⟨first, run, rfl⟩ := List.exists_cons_of_ne_nil ends.1
        exact ⟨first, rfl, inside first List.mem_cons_self⟩
      have opens : Opens pattern (m.head.reverse ++ before) (run ++ (m.close ++ rest)).head? := ⟨context_of_heads heads before, next⟩
      have tail := Grown.append (run ++ m.close) (ih ((run ++ m.close).reverse ++ (slash :: (m.head.reverse ++ before))))
      rw [List.append_assoc] at tail
      have grown := Grown.append m.head (Grown.insert opens tail)
      simpa [Match.text, path] using grown

private theorem fixed_parts {rest' : Bytes} (parts : Parts pattern prev m run rest) (grown : Passed cameraID other before rest rest') :
    ∃ run', Parts pattern prev (fixed cameraID m) run' rest' := by
  obtain ⟨heads, path, inside, ends⟩ := parts
  unfold fixed
  split
  · exact ⟨run, heads, path, inside, ends_grown ends (given_of_ends ends) grown⟩
  · have starts : webUI cameraID = slash :: (webUI cameraID).tail := rfl
    refine ⟨(webUI cameraID).tail ++ m.path, heads, rfl, fun byte held => ?_, ends_grown ends (.inl (by simp [path])) grown⟩
    rcases List.mem_append.mp held with copied | own
    · exact stops_of_plain (plain_webUI cameraID byte (starts ▸ List.mem_cons_of_mem _ copied))
    · rw [path] at own
      rcases List.mem_cons.mp own with rfl | later
      · exact stops_of_plain plain_slash
      · exact inside byte later

private theorem fixed_last (path : m.path = slash :: run) : (fixed cameraID m).text.getLast? = m.text.getLast? := by
  unfold fixed
  split
  · rfl
  · have given : m.path ≠ [] := by simp [path]
    simp only [Match.text, List.getLast?_append, List.getLast?_append_of_ne_nil _ given]

/-- The matches of a pass's own pattern afterwards. -/
theorem search_replaceAll (prev : Option UInt8) (x : Bytes) :
    (matcher pattern).search 0 prev ((matcher pattern).replaceAll (fun m => fixMatch cameraID pattern m.text) 0 prev x) =
      ((matcher pattern).search 0 prev x).map (fixed cameraID) := by
  induction prev, x using (matcher pattern).induct with
  | nil => rfl
  | gap prev byte t none_ ih =>
    have grown := passed_replaceAll cameraID pattern prev [] (byte :: t)
    rw [Matcher.replaceAll_gap none_] at grown ⊢
    rw [Matcher.search_gap none_, Matcher.search_gap, ih]
    refine Option.eq_none_iff_forall_ne_some.mpr fun m found => ?_
    obtain ⟨m', hit⟩ := matchAt_of_grown found grown
    exact nomatch none_.symm.trans hit
  | hit prev m rest found ih =>
    obtain ⟨run, rest₁, ⟨heads, path, inside, ends⟩, whole⟩ := matchAt_iff.mp found
    obtain rfl := List.append_cancel_left whole
    rw [Matcher.search_match found rfl, Matcher.replaceAll_match found rfl, List.map_cons, ← ih]
    have grown := passed_replaceAll cameraID pattern m.text.getLast? [] rest
    obtain ⟨run', parts⟩ := fixed_parts ⟨heads, path, inside, ends⟩ grown
    have again : (matcher pattern).matchAt prev ((matcher pattern).text (fixed cameraID m) ++ _) = some (fixed cameraID m) :=
      matchAt_iff.mpr ⟨run', _, parts, rfl⟩
    have last : ((matcher pattern).text (fixed cameraID m)).getLast? = ((matcher pattern).text m).getLast? := fixed_last path
    have tail := Matcher.search_match again rfl
    rw [last] at tail
    have text : fixMatch cameraID pattern m.text = (matcher pattern).text (fixed cameraID m) := fixMatch_text found
    rw [text]
    exact tail

/-! ## All passes -/

/-- A match and what the rewriting makes of it. -/
def Treated (cameraID : UUID) (m m' : Match) : Prop :=
  m'.head = m.head ∧ isLeft cameraID m'.path = (isLeft cameraID m.path || !isFolded m)

private theorem forall₂_trans {α : Type} {R S T : α → α → Prop} {l₁ l₂ l₃ : List α} (comp : ∀ a b c, R a b → S b c → T a c)
    (first : List.Forall₂ R l₁ l₂) (second : List.Forall₂ S l₂ l₃) : List.Forall₂ T l₁ l₃ := by
  induction first generalizing l₃ with
  | nil =>
    cases second
    exact .nil
  | cons related _ ih =>
    cases second with
    | cons related' rest => exact .cons (comp _ _ _ related related') (ih rest)

private theorem fixed_treated (cameraID : UUID) (m : Match) : Treated cameraID m (fixed cameraID m) := by
  unfold Treated fixed
  cases folded : isFolded m with
  | true => simp
  | false =>
    cases left : isLeft cameraID m.path with
    | true => simp [left]
    | false => simp [isLeft]

private theorem found_fix_own (cameraID : UUID) (pattern : Pattern) (body : Bytes) :
    List.Forall₂ (Treated cameraID) (found pattern body) (found pattern (fix cameraID pattern body)) := by
  unfold found fix
  rw [search_replaceAll, List.forall₂_map_right_iff, List.forall₂_same]
  exact fun m _ => fixed_treated cameraID m

private theorem found_fix_other (cameraID : UUID) (apart : pattern ≠ other) (body : Bytes) :
    List.Forall₂ (fun m m' => m'.head = m.head ∧ isLeft cameraID m'.path = isLeft cameraID m.path)
      (found pattern body) (found pattern (fix cameraID other body)) :=
  search_of_other apart (passed_replaceAll cameraID other none [] body)

/-- Each pattern has as many matches afterwards as before, one for one. -/
theorem found_rewriteRootRelativeURLs (cameraID : UUID) (pattern : Pattern) (body : Bytes) :
    List.Forall₂ (Treated cameraID) (found pattern body) (found pattern (rewriteRootRelativeURLs body cameraID)) := by
  have before (a b c : Match) : (b.head = a.head ∧ isLeft cameraID b.path = isLeft cameraID a.path) → Treated cameraID b c →
      Treated cameraID a c := by
    rintro ⟨head, left⟩ ⟨head', left'⟩
    exact ⟨head'.trans head, by rw [left', left, isFolded, isFolded, head]⟩
  have after (a b c : Match) : Treated cameraID a b → (c.head = b.head ∧ isLeft cameraID c.path = isLeft cameraID b.path) →
      Treated cameraID a c := by
    rintro ⟨head, left⟩ ⟨head', left'⟩
    exact ⟨head'.trans head, left'.trans left⟩
  -- the pattern's own pass, between those of the others
  have apart : Pattern.attrDQ ≠ .attrSQ ∧ Pattern.attrDQ ≠ .css ∧ Pattern.attrSQ ≠ .css := by decide
  unfold rewriteRootRelativeURLs
  cases pattern with
  | attrDQ =>
    have own := found_fix_own cameraID .attrDQ body
    have second := forall₂_trans after own (found_fix_other cameraID apart.1 _)
    exact forall₂_trans after second (found_fix_other cameraID apart.2.1 _)
  | attrSQ =>
    have first := found_fix_other cameraID apart.1.symm body
    have own := forall₂_trans before first (found_fix_own cameraID .attrSQ _)
    exact forall₂_trans after own (found_fix_other cameraID apart.2.2 _)
  | css =>
    have first := found_fix_other cameraID apart.2.1.symm body
    have second := found_fix_other cameraID apart.2.2.symm (fix cameraID .attrDQ body)
    exact forall₂_trans before first (forall₂_trans before second (found_fix_own cameraID .css _))

/-- Where all matches are left, a pass does nothing. -/
theorem fix_self {body : Bytes} (settled : ∀ m ∈ found pattern body, isFolded m = true ∨ isLeft cameraID m.path = true) :
    fix cameraID pattern body = body := by
  refine Matcher.replaceAll_self fun m held => ?_
  obtain ⟨prev, rest, hit⟩ := Matcher.search_found held
  have text : fixMatch cameraID pattern m.text = (fixed cameraID m).text := fixMatch_text hit
  have same : fixed cameraID m = m := if_pos (by simpa using settled m held)
  change fixMatch cameraID pattern m.text = m.text
  rw [text, same]

private theorem mem_of_forall₂ {α : Type} {R : α → α → Prop} {l l' : List α} (all : List.Forall₂ R l l') {b : α} (held : b ∈ l') :
    ∃ a ∈ l, R a b := by
  induction all with
  | nil => cases held
  | cons related _ ih =>
    rcases List.mem_cons.mp held with rfl | later
    · exact ⟨_, List.mem_cons_self, related⟩
    · obtain ⟨a, own, related⟩ := ih later
      exact ⟨a, List.mem_cons_of_mem _ own, related⟩

/-- A second rewriting does nothing. -/
theorem rewriteRootRelativeURLs_again (cameraID : UUID) (body : Bytes) :
    rewriteRootRelativeURLs (rewriteRootRelativeURLs body cameraID) cameraID = rewriteRootRelativeURLs body cameraID := by
  have settled (pattern : Pattern) : fix cameraID pattern (rewriteRootRelativeURLs body cameraID) = rewriteRootRelativeURLs body cameraID := by
    refine fix_self fun m' held => ?_
    obtain ⟨m, _, head, left⟩ := mem_of_forall₂ (found_rewriteRootRelativeURLs cameraID pattern body) held
    rw [left, isFolded, head, ← isFolded]
    cases isFolded m <;> simp
  rw [rewriteRootRelativeURLs, settled, settled, settled]

/-- Only copies of the proxy's path come in. -/
theorem inserts_rewriteRootRelativeURLs (cameraID : UUID) (body : Bytes) :
    Inserts (webUI cameraID) body (rewriteRootRelativeURLs body cameraID) := by
  have pass {pattern : Pattern} {y : Bytes} (inserts : Inserts (webUI cameraID) body y) :
      Inserts (webUI cameraID) body (fix cameraID pattern y) :=
    inserts.grow (head_webUI cameraID) not_opens_plain (passed_replaceAll cameraID pattern none [] y)
  exact pass (pass (pass (.refl body)))

/-! ## When no link is left out -/

/-- The rewriting is stable: a second one does nothing, only copies of the proxy's path come in,
and no match of a pattern needs one afterwards. -/
def Stable (cameraID : UUID) (body : Bytes) : Prop :=
  rewriteRootRelativeURLs (rewriteRootRelativeURLs body cameraID) cameraID = rewriteRootRelativeURLs body cameraID ∧
    Inserts (webUI cameraID) body (rewriteRootRelativeURLs body cameraID) ∧
    ∀ pattern, ∀ m ∈ found pattern (rewriteRootRelativeURLs body cameraID), isLeft cameraID m.path = true

/-- The links that start with `U+017F` stay as they are. -/
theorem rewriteRootRelativeURLs_stable_iff (cameraID : UUID) (body : Bytes) :
    Stable cameraID body ↔ ∀ pattern, ∀ m ∈ found pattern body, isFolded m = true → isLeft cameraID m.path = true := by
  have treated (pattern : Pattern) := found_rewriteRootRelativeURLs cameraID pattern body
  constructor
  · rintro ⟨_, _, all⟩ pattern m held folded
    obtain ⟨m', held', _, left⟩ := mem_of_forall₂ (treated pattern).flip held
    rw [all pattern m' held', folded, Bool.not_true, Bool.or_false] at left
    exact left.symm
  · intro condition
    refine ⟨rewriteRootRelativeURLs_again cameraID body, inserts_rewriteRootRelativeURLs cameraID body, fun pattern m' held => ?_⟩
    obtain ⟨m, own, _, left⟩ := mem_of_forall₂ (treated pattern) held
    rw [left]
    cases folded : isFolded m with
    | false => simp
    | true => simp [condition pattern m own folded]

/-- The pattern matches behind a letter, but its match alone has no word boundary in front. -/
theorem long_s_survives : ¬ Stable ⟨0⟩ (bytes "aſrc=\"/x\"") := by
  rintro ⟨_, _, all⟩
  have left : ∃ m ∈ found .attrDQ (rewriteRootRelativeURLs (bytes "aſrc=\"/x\"") ⟨0⟩), isLeft ⟨0⟩ m.path = false := by
    decide +kernel
  obtain ⟨m, held, bare⟩ := left
  exact nomatch bare.symm.trans (all .attrDQ m held)

end Ironsight.LinkRewritingProofs
