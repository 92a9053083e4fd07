import Ironsight.SignedPlaylists

/-! Live playlists behind the proxy. The URIs of a playlist from the media server are replaced
by paths under the proxy; a bare URI and one in a tag are rewritten by two functions. -/
namespace Ironsight.LivePlaylists
open Credentials (ascii)
open LineScanner
open SignedPlaylists (hash quote marker Bare)

def slash : UInt8 := 47

def question : UInt8 := 63

/-- What follows the last slash. -/
def leafOf (uri : List UInt8) : List UInt8 := (uri.reverse.takeWhile (· ≠ slash)).reverse

/-- `/api/live/<cameraID>/`. -/
def proxyPath (cameraID : List UInt8) : List UInt8 := ascii "/api/live/" ++ cameraID ++ [slash]

def rewriteLiveProxyAttributeURI (line cameraID : List UInt8) : List UInt8 :=
  match cut marker line with
  | none => line
  | some (before, rest) =>
    match cut [quote] rest with
    | none => line
    | some (uri, behind) => before ++ marker ++ proxyPath cameraID ++ leafOf uri ++ quote :: behind

/-- One turn of the loop, without the newline that every branch ends with. -/
def rewriteLine (line cameraID : List UInt8) : List UInt8 :=
  let trimmed := trimSpace line
  if trimmed = [] then []
  else if trimmed.head? = some hash then
    if (cut marker trimmed).isSome then rewriteLiveProxyAttributeURI line cameraID else line
  else
    -- the query begins at the first question mark, and has it in front
    let uri := trimmed.takeWhile (· ≠ question)
    let query := trimmed.dropWhile (· ≠ question)
    proxyPath cameraID ++ leafOf uri ++ query

/-- The default buffer of a scanner. -/
def maxScanTokenSize : Nat := 64 * 1024

/-- An error of the scanner ends the loop as the end of the body does. -/
def rewriteLiveProxyPlaylist (body cameraID : List UInt8) : List UInt8 :=
  terminated ((scanned maxScanTokenSize body).map fun line => rewriteLine line cameraID)

/-! ## What a rewritten playlist is -/

def pathOf (uri : List UInt8) : List UInt8 := uri.takeWhile (· ≠ question)

def queryOf (uri : List UInt8) : List UInt8 := uri.dropWhile (· ≠ question)

/-- What a URI becomes: the last component of its path and its query, under the proxy. -/
def target (cameraID uri : List UInt8) : List UInt8 := proxyPath cameraID ++ (leafOf (pathOf uri) ++ queryOf uri)

/-- The first quoted URI of a tag: what stands before its value, the value, and what stands
behind its closing quote. -/
def firstURI (line : List UInt8) : Option (List UInt8 × List UInt8 × List UInt8) := do
  let (before, rest) ← cut marker line
  let (uri, behind) ← cut [quote] rest
  return (before ++ marker, uri, behind)

/-- A tag with each of its quoted URIs replaced; `fuel` is at least their number. -/
def targets (cameraID : List UInt8) : (fuel : Nat) → List UInt8 → List UInt8
  | 0, line => line
  | fuel + 1, line =>
    match firstURI line with
    | none => line
    | some (before, uri, behind) => before ++ target cameraID uri ++ quote :: targets cameraID fuel behind

/-- A line with nothing but its URIs changed. -/
def complete (cameraID line : List UInt8) : List UInt8 :=
  if Bare line then
    line.take (line.length - (trimLeft line).length) ++ target cameraID (trimSpace line) ++
      (trimLeft line).drop (trimSpace line).length
  else if trimSpace line = [] then line
  else targets cameraID line.length line

/-- Every line of the playlist, in order, with nothing but its URIs changed. -/
def completePlaylist (body cameraID : List UInt8) : List UInt8 :=
  terminated (((rawLines body).map dropCR).map (complete cameraID))

/-! ## URIs -/

theorem leafOf_append_of_notMem (uri rest : List UInt8) (plain : slash ∉ rest) :
    leafOf (uri ++ rest) = leafOf uri ++ rest := by
  have all : ∀ byte ∈ rest.reverse, decide (byte ≠ slash) = true := fun byte held => by
    have other : byte ≠ slash := fun same => plain (same ▸ List.mem_reverse.mp held)
    exact decide_eq_true other
  rw [leafOf, leafOf, List.reverse_append, List.takeWhile_append_of_pos all, List.reverse_append, List.reverse_reverse]

theorem leafOf_suffix (uri : List UInt8) : leafOf uri <:+ uri := by
  rw [leafOf, ← List.reverse_prefix, List.reverse_reverse]
  exact List.takeWhile_prefix _

theorem slash_notMem_leafOf (uri : List UInt8) : slash ∉ leafOf uri := by
  intro held
  have kept := List.mem_takeWhile_imp (List.mem_reverse.mp held)
  simp at kept

/-- Of a URI with a query, everything behind the last slash is what the target keeps exactly
if the query has no slash. -/
theorem leafOf_eq_iff (uri : List UInt8) : leafOf uri = leafOf (pathOf uri) ++ queryOf uri ↔ slash ∉ queryOf uri := by
  have parts : uri = pathOf uri ++ queryOf uri := List.takeWhile_append_dropWhile.symm
  constructor
  · intro same held
    refine slash_notMem_leafOf uri ?_
    rw [same]
    exact List.mem_append_right _ held
  · intro plain
    conv_lhs => rw [parts]
    exact leafOf_append_of_notMem _ _ plain

/-! ## Lines -/

/-- What stands around a text can be told from its length. -/
theorem surrounded_iff {lead trail inner : List UInt8} : inner = lead ++ inner ++ trail ↔ lead = [] ∧ trail = [] := by
  constructor
  · intro same
    have lengths := congrArg List.length same
    simp only [List.length_append] at lengths
    exact ⟨List.length_eq_zero_iff.mp (by omega), List.length_eq_zero_iff.mp (by omega)⟩
  · rintro ⟨rfl, rfl⟩
    rw [List.nil_append, List.append_nil]

/-- A bare URI is rewritten completely if there are no blanks around it. -/
theorem complete_bare_iff {cameraID line : List UInt8} (bare : Bare line) :
    rewriteLine line cameraID = complete cameraID line ↔ trimSpace line = line := by
  have written : rewriteLine line cameraID = target cameraID (trimSpace line) := by
    simp only [rewriteLine, if_neg bare.1, if_neg bare.2, target, pathOf, queryOf, List.append_assoc]
  obtain ⟨lead, trail, left, right, -⟩ := trimSpace_parts line
  have before : line.take (line.length - (trimLeft line).length) = lead := by
    have front : lead <+: line := ⟨trimLeft line, left.symm⟩
    have lengths := congrArg List.length left
    rw [List.length_append] at lengths
    rw [show line.length - (trimLeft line).length = lead.length by omega]
    exact (List.prefix_iff_eq_take.mp front).symm
  have behind : (trimLeft line).drop (trimSpace line).length = trail := by
    conv_lhs => rw [right]
    exact List.drop_left
  have whole : line = lead ++ trimSpace line ++ trail := by rw [List.append_assoc, ← right, ← left]
  rw [written, complete, if_pos bare, before, behind, surrounded_iff, ← @surrounded_iff lead trail (trimSpace line), ← whole]

theorem firstURI_parts {line before uri behind : List UInt8} (found : firstURI line = some (before, uri, behind)) :
    ∃ front rest, cut marker line = some (front, rest) ∧ cut [quote] rest = some (uri, behind) ∧ before = front ++ marker ∧
      line = before ++ uri ++ quote :: behind ∧ quote ∉ uri := by
  simp only [firstURI, Option.bind_eq_bind, Option.bind_eq_some_iff] at found
  obtain ⟨⟨front, rest⟩, marked, ⟨uri', behind'⟩, quoted, same⟩ := found
  cases same
  refine ⟨front, rest, marked, quoted, rfl, ?_, notMem_of_cut quoted⟩
  dsimp only at quoted ⊢
  rw [cut_parts marked, cut_parts quoted]
  simp only [List.append_assoc, List.singleton_append]

theorem firstURI_shorter {line before uri behind : List UInt8} (found : firstURI line = some (before, uri, behind)) :
    behind.length < line.length := by
  obtain ⟨_, _, -, -, -, parts, -⟩ := firstURI_parts found
  rw [parts]
  simp only [List.length_append, List.length_cons]
  omega

/-- Any fuel that is enough will do. -/
theorem targets_fuel (cameraID : List UInt8) {fuel fuel' : Nat} {line : List UInt8} (enough : line.length ≤ fuel)
    (enough' : line.length ≤ fuel') : targets cameraID fuel line = targets cameraID fuel' line := by
  have exhausted : ∀ fuel, targets cameraID fuel [] = [] := fun fuel => by cases fuel <;> rfl
  induction fuel generalizing fuel' line with
  | zero =>
    rw [List.length_eq_zero_iff.mp (Nat.le_zero.mp enough), exhausted, exhausted]
  | succ fuel ih =>
    cases fuel' with
    | zero => rw [List.length_eq_zero_iff.mp (Nat.le_zero.mp enough'), exhausted, exhausted]
    | succ fuel' =>
      rw [targets, targets]
      cases found : firstURI line with
      | none => rfl
      | some parts =>
        obtain ⟨before, uri, behind⟩ := parts
        have shorter := firstURI_shorter found
        have same := @ih fuel' behind (by omega) (by omega)
        simp only [same]

theorem marker_apart : ∀ byte ∈ marker, byte ∉ spaces.flatten := by decide +kernel

/-- Trimming a line leaves the marker in it. -/
theorem marker_trimSpace {line : List UInt8} {around : List UInt8 × List UInt8} (marked : cut marker line = some around) :
    marker <:+: trimSpace line ∧ trimSpace line ≠ [] := by
  have inside : marker <:+: trimSpace line :=
    infix_trimSpace (by decide) marker_apart (cut_isSome_iff.mp (by rw [marked]; rfl))
  exact ⟨inside, fun empty => absurd (List.infix_nil.mp (empty ▸ inside)) (by decide)⟩

/-- A tag with a URI is rewritten completely if that one has no slash in its query and no other
one behind it has to be changed. -/
theorem complete_tag_iff {cameraID line before uri behind : List UInt8} (tag : ¬ Bare line)
    (found : firstURI line = some (before, uri, behind)) : rewriteLine line cameraID = complete cameraID line ↔
      slash ∉ queryOf uri ∧ targets cameraID behind.length behind = behind := by
  obtain ⟨front, rest, marked, quoted, rfl, parts, plain⟩ := firstURI_parts found
  obtain ⟨inside, given⟩ := marker_trimSpace marked
  have hashed : (trimSpace line).head? = some hash := by
    by_contra other
    exact tag ⟨given, other⟩
  have written : rewriteLine line cameraID = front ++ marker ++ proxyPath cameraID ++ (leafOf uri ++ quote :: behind) := by
    simp only [rewriteLine, if_neg given, if_pos hashed, if_pos (cut_isSome_iff.mpr inside), rewriteLiveProxyAttributeURI,
      marked, quoted, List.append_assoc]
  have spec : complete cameraID line = front ++ marker ++ proxyPath cameraID ++
      (leafOf (pathOf uri) ++ queryOf uri ++ quote :: targets cameraID behind.length behind) := by
    have shorter := firstURI_shorter found
    obtain ⟨fuel, length⟩ : ∃ fuel, line.length = fuel + 1 := ⟨line.length - 1, by omega⟩
    rw [complete, if_neg tag, if_neg given, length, targets, found]
    simp only [target, targets_fuel cameraID (show behind.length ≤ fuel by omega) (Nat.le_refl _), List.append_assoc]
  rw [written, spec, List.append_cancel_left_eq, ← leafOf_eq_iff]
  constructor
  · intro same
    have unquoted : quote ∉ leafOf (pathOf uri) ++ queryOf uri := fun held => (List.mem_append.mp held).elim
      (fun there => plain (List.takeWhile_subset _ ((leafOf_suffix _).subset there)))
      (fun there => plain ((List.dropWhile_suffix _).subset there))
    obtain ⟨leaf, rest⟩ := separate (fun held => plain ((leafOf_suffix uri).subset held)) unquoted same
    exact ⟨leaf, rest.symm⟩
  · rintro ⟨leaf, rest⟩
    rw [leaf, rest]

/-- A tag without a URI, or a line of blanks, is written as it is, or empty. -/
theorem complete_plain_iff {cameraID line : List UInt8} (tag : ¬ Bare line) (found : firstURI line = none) :
    rewriteLine line cameraID = complete cameraID line ↔ (trimSpace line = [] → line = []) := by
  have unchanged : rewriteLiveProxyAttributeURI line cameraID = line := by
    unfold rewriteLiveProxyAttributeURI
    unfold firstURI at found
    cases marked : cut marker line with
    | none => rfl
    | some parts =>
      cases quoted : cut [quote] parts.2 with
      | none => simp only [quoted]
      | some parts' => simp [marked, quoted] at found
  have spec : complete cameraID line = line := by
    rw [complete, if_neg tag]
    split
    · rfl
    · cases length : line.length with
      | zero => rfl
      | succ fuel => rw [targets, found]
  rw [spec]
  by_cases empty : trimSpace line = []
  · simp only [rewriteLine, empty, true_imp_iff]
    exact eq_comm
  · have hashed : (trimSpace line).head? = some hash := by
      by_contra other
      exact tag ⟨empty, other⟩
    have same : rewriteLine line cameraID = line := by
      simp only [rewriteLine, if_neg empty, if_pos hashed, unchanged, ite_self]
    exact iff_of_true same fun none => absurd none empty

/-- No blanks are lost, no query of the first URI has a slash in it, and no URI behind that one
has to be changed. -/
structure Regular (cameraID line : List UInt8) : Prop where
  blank : trimSpace line = [] → line = []
  bare : Bare line → trimSpace line = line
  tag : ¬ Bare line → ∀ before uri behind, firstURI line = some (before, uri, behind) →
    slash ∉ queryOf uri ∧ targets cameraID behind.length behind = behind

theorem line_complete_iff (cameraID line : List UInt8) :
    rewriteLine line cameraID = complete cameraID line ↔ Regular cameraID line := by
  by_cases bare : Bare line
  · rw [complete_bare_iff bare]
    exact ⟨fun same => ⟨fun empty => absurd empty bare.1, fun _ => same, fun tag => absurd bare tag⟩, fun regular => regular.bare bare⟩
  · cases found : firstURI line with
    | none =>
      rw [complete_plain_iff bare found]
      refine ⟨fun blank => ⟨blank, fun held => absurd held bare, fun _ before uri behind there => ?_⟩, Regular.blank⟩
      cases found.symm.trans there
    | some parts =>
      obtain ⟨before, uri, behind⟩ := parts
      rw [complete_tag_iff bare found]
      constructor
      · refine fun kept => ⟨fun empty => ?_, fun held => absurd held bare, fun _ before' uri' behind' there => ?_⟩
        · obtain ⟨front, rest, marked, -⟩ := firstURI_parts found
          exact absurd empty (marker_trimSpace marked).2
        · cases found.symm.trans there
          exact kept
      · exact fun regular => regular.tag bare before uri behind found

/-! ## Playlists -/

section Newlines
variable {cameraID : List UInt8} (single : newline ∉ cameraID)
include single

theorem newline_notMem_proxyPath : newline ∉ proxyPath cameraID := by
  simp only [proxyPath, List.mem_append, not_or]
  exact ⟨⟨by decide, single⟩, by decide⟩

theorem newline_notMem_target {uri : List UInt8} (plain : newline ∉ uri) : newline ∉ target cameraID uri := by
  simp only [target, List.mem_append, not_or]
  exact ⟨newline_notMem_proxyPath single, fun held => plain (List.takeWhile_subset _ ((leafOf_suffix _).subset held)),
    fun held => plain ((List.dropWhile_suffix _).subset held)⟩

theorem newline_notMem_targets (fuel : Nat) {line : List UInt8} (plain : newline ∉ line) :
    newline ∉ targets cameraID fuel line := by
  induction fuel generalizing line with
  | zero => exact plain
  | succ fuel ih =>
    rw [targets]
    cases found : firstURI line with
    | none => exact plain
    | some parts =>
      obtain ⟨before, uri, behind⟩ := parts
      obtain ⟨_, _, -, -, -, parts, -⟩ := firstURI_parts found
      rw [parts] at plain
      simp only [List.mem_append, List.mem_cons, not_or] at plain ⊢
      exact ⟨⟨plain.1.1, newline_notMem_target single plain.1.2⟩, plain.2.1, ih plain.2.2⟩

theorem newline_notMem_complete {line : List UInt8} (plain : newline ∉ line) : newline ∉ complete cameraID line := by
  rw [complete]
  split_ifs with bare empty
  · simp only [List.mem_append, not_or]
    refine ⟨⟨fun held => plain (List.mem_of_mem_take held), ?_⟩, fun held => plain ?_⟩
    · exact newline_notMem_target single fun held => plain ((trimSpace_within line).subset held)
    · obtain ⟨lead, trail, left, -⟩ := trimSpace_parts line
      rw [left]
      exact List.mem_append_right _ (List.mem_of_mem_drop held)
  · exact plain
  · exact newline_notMem_targets single _ plain

theorem newline_notMem_rewriteLine {line : List UInt8} (plain : newline ∉ line) :
    newline ∉ rewriteLine line cameraID := by
  have tag : newline ∉ rewriteLiveProxyAttributeURI line cameraID := by
    rw [rewriteLiveProxyAttributeURI]
    split
    · exact plain
    · rename_i before rest marked
      split
      · exact plain
      · rename_i uri behind quoted
        rw [cut_parts marked, cut_parts quoted] at plain
        simp only [List.mem_append, List.mem_cons, not_or] at plain ⊢
        exact ⟨⟨⟨plain.1, newline_notMem_proxyPath single⟩, fun held => plain.2.1.1 ((leafOf_suffix uri).subset held)⟩,
          by decide, plain.2.2⟩
  simp only [rewriteLine]
  split_ifs
  · exact List.not_mem_nil
  · exact tag
  · exact plain
  · have inner : newline ∉ trimSpace line := fun held => plain ((trimSpace_within line).subset held)
    have whole := newline_notMem_target single inner
    rw [target, ← List.append_assoc] at whole
    exact whole

end Newlines

/-- A playlist is rewritten completely exactly if no line is too long for the scanner and each
line is regular. A camera's id has passed through the path of a request, which may not hold a
newline. -/
theorem rewrite_complete_iff {cameraID : List UInt8} (single : newline ∉ cameraID) (body : List UInt8) :
    rewriteLiveProxyPlaylist body cameraID = completePlaylist body cameraID ↔
      tooLong maxScanTokenSize body = false ∧ ∀ line ∈ (rawLines body).map dropCR, Regular cameraID line := by
  have plain : ∀ line ∈ (rawLines body).map dropCR, newline ∉ line := by
    intro line held
    obtain ⟨raw, inside, rfl⟩ := List.mem_map.mp held
    exact fun there => newline_notMem_rawLines inside ((dropCR_front raw).subset there)
  have delivered : ∀ line ∈ scanned maxScanTokenSize body, line ∈ (rawLines body).map dropCR :=
    ((List.takeWhile_sublist _).map dropCR).subset
  rw [rewriteLiveProxyPlaylist, completePlaylist]
  constructor
  · intro same
    have written : ∀ line ∈ (scanned maxScanTokenSize body).map fun line => rewriteLine line cameraID, newline ∉ line := by
      intro line held
      obtain ⟨line', inside, rfl⟩ := List.mem_map.mp held
      exact newline_notMem_rewriteLine single (plain line' (delivered line' inside))
    have wanted : ∀ line ∈ ((rawLines body).map dropCR).map (complete cameraID), newline ∉ line := by
      intro line held
      obtain ⟨line', inside, rfl⟩ := List.mem_map.mp held
      exact newline_notMem_complete single (plain line' inside)
    have lines := (terminated_inj written wanted List.not_mem_nil (same.trans (List.append_nil _).symm)).1
    have fits : tooLong maxScanTokenSize body = false := by
      have lengths := congrArg List.length lines
      simp only [scanned, List.length_map] at lengths
      have whole := (List.takeWhile_prefix fun line : List UInt8 => line.length < maxScanTokenSize).eq_of_length lengths
      refine List.any_eq_false.mpr fun line held long => ?_
      have short := List.takeWhile_eq_self_iff.mp whole line held
      exact absurd (of_decide_eq_true short) (Nat.not_lt.mpr (of_decide_eq_true long))
    rw [scanned_of_not_tooLong fits] at lines
    exact ⟨fits, fun line held => (line_complete_iff cameraID line).mp (List.map_inj_left.mp lines line held)⟩
  · rintro ⟨fits, regular⟩
    rw [scanned_of_not_tooLong fits]
    exact congrArg terminated (List.map_congr_left fun line held => (line_complete_iff cameraID line).mpr (regular line held))

/-- `#EXT-X-MAP:URI="a/init.mp4?k=1"` and `/x/seg0.mp4?k=1`. -/
private def twoLines : List UInt8 := ascii "#EXT-X-MAP:URI=\"a/init.mp4?k=1\"\n/x/seg0.mp4?k=1\r\n"

/-- A URI in a tag and one on a line of its own. -/
theorem two_lines_complete : rewriteLiveProxyPlaylist twoLines (ascii "c1") = completePlaylist twoLines (ascii "c1") := by
  refine (rewrite_complete_iff (by decide) _).mpr ⟨by decide, fun line held => (line_complete_iff _ line).mp ?_⟩
  revert line
  decide +kernel

/-- Of a tag's URI with a slash in its query only what follows that slash is left. -/
theorem query_lost : newline ∉ ascii "c1" ∧
    rewriteLiveProxyPlaylist (ascii "#EXT-X-MAP:URI=\"init.mp4?k=a/b\"\n") (ascii "c1") =
      ascii "#EXT-X-MAP:URI=\"/api/live/c1/b\"\n" ∧
    rewriteLiveProxyPlaylist (ascii "#EXT-X-MAP:URI=\"init.mp4?k=a/b\"\n") (ascii "c1") ≠
      completePlaylist (ascii "#EXT-X-MAP:URI=\"init.mp4?k=a/b\"\n") (ascii "c1") := by
  decide +kernel

end Ironsight.LivePlaylists
