import Mathlib.Algebra.BigOperators.Group.List.Basic
import Mathlib.Data.List.Basic
import Mathlib.Data.List.TakeWhile
import Mathlib.Tactic.Ring

/-!
# Paths in request targets

What happens to a path between the string a client asks for and the string a
server routes on: it is cut at the first `?` or `#`, its dot segments are
dropped, characters that need it are percent-encoded while escapes already
present are kept, and the server decodes every escape once.  Encoding a
character and decoding it again is the identity, so `decodePath` works on the
unencoded path and only the escapes the caller wrote are decoded.

Every stage keeps or shortens the text, and shortens it whenever it changes it
(`cutTarget_length`, `normalizePath_length`, `decodePath_length`): a path that
arrives at full length arrives unchanged.
-/
namespace UrlPath

/-! ## Cutting the target -/

/-- The path of a target: what stands before the first `?` or `#`. -/
def cutTarget (target : List Char) : List Char :=
  target.takeWhile fun c => c ≠ '?' ∧ c ≠ '#'

theorem cutTarget_eq_self {target : List Char} :
    cutTarget target = target ↔ '?' ∉ target ∧ '#' ∉ target := by
  rw [cutTarget, List.takeWhile_eq_self_iff]
  simp only [ne_eq, decide_eq_true_eq]
  constructor
  · intro h
    exact ⟨fun hq => (h _ hq).1 rfl, fun hh => (h _ hh).2 rfl⟩
  · rintro ⟨hq, hh⟩ c hc
    exact ⟨fun e => hq (e ▸ hc), fun e => hh (e ▸ hc)⟩

/-- Cutting shortens, or changes nothing. -/
theorem cutTarget_length (target : List Char) :
    (cutTarget target).length < target.length ∨ cutTarget target = target := by
  have hcut : cutTarget target <+: target := List.takeWhile_prefix _
  rcases Nat.lt_or_ge (cutTarget target).length target.length with h | h
  · exact Or.inl h
  · exact Or.inr (hcut.eq_of_length (le_antisymm hcut.length_le h))

/-! ## Dot segments -/

/-- One step of dropping dot segments: `.` is skipped, `..` removes the segment before it. -/
def dropDot (output : List (List Char)) (component : List Char) : List (List Char) :=
  if component = ['.'] then output
  else if component = ['.', '.'] then
    if output ≠ [] ∧ output ≠ [[]] then output.dropLast else output
  else output ++ [component]

/-- A path without `.` and `..` segments. -/
def normalizePath (path : List Char) : List Char :=
  let components := path.splitOn '/'
  if ['.'] ∉ components ∧ ['.', '.'] ∉ components then path
  else ['/'].intercalate (components.foldl dropDot [])

/-- The length of the segments, counting one separator each. -/
def weight (segments : List (List Char)) : ℕ := (segments.map fun s => s.length + 1).sum

@[simp] theorem weight_nil : weight [] = 0 := rfl

@[simp] theorem weight_cons (s : List Char) (ss : List (List Char)) :
    weight (s :: ss) = s.length + 1 + weight ss := by
  simp [weight]

@[simp] theorem weight_append (ss ss' : List (List Char)) :
    weight (ss ++ ss') = weight ss + weight ss' := by
  simp [weight]

theorem length_intercalate (segments : List (List Char)) :
    (['/'].intercalate segments).length = weight segments - 1 := by
  induction segments with
  | nil => rfl
  | cons s ss ih =>
    cases ss with
    | nil => simp
    | cons s' ss =>
      rw [List.intercalate_cons_cons, List.length_append, List.length_append, ih]
      simp only [weight_cons, List.length_singleton]
      omega

theorem weight_splitOn (path : List Char) : weight (path.splitOn '/') = path.length + 1 := by
  have hjoin : (['/'].intercalate (path.splitOn '/')).length = path.length :=
    congrArg List.length (List.intercalate_splitOn '/')
  rw [length_intercalate] at hjoin
  obtain ⟨s, ss, hs⟩ := List.exists_cons_of_ne_nil (List.splitOn_ne_nil '/' path)
  rw [hs, weight_cons] at hjoin ⊢
  omega

/-- No segment holds a separator. -/
theorem slash_notMem_segment {path segment : List Char} (h : segment ∈ path.splitOn '/') :
    '/' ∉ segment := by
  induction path generalizing segment with
  | nil =>
    rw [List.splitOn_nil, List.mem_singleton] at h
    simp [h]
  | cons c cs ih =>
    rw [List.splitOn_cons_eq_if_modifyHead] at h
    split at h
    · rcases List.mem_cons.mp h with rfl | h
      · exact List.not_mem_nil
      · exact ih h
    · rename_i hc
      obtain ⟨s, ss, hs⟩ := List.exists_cons_of_ne_nil (List.splitOn_ne_nil '/' cs)
      rw [hs, List.modifyHead_cons] at h
      rcases List.mem_cons.mp h with rfl | h
      · intro hmem
        rcases List.mem_cons.mp hmem with heq | hmem
        · exact hc (beq_iff_eq.mpr heq.symm)
        · exact ih (hs ▸ List.mem_cons_self) hmem
      · exact ih (hs ▸ List.mem_cons_of_mem _ h)

theorem weight_dropLast_le (ss : List (List Char)) : weight ss.dropLast ≤ weight ss := by
  induction ss with
  | nil => rfl
  | cons s ss ih =>
    cases ss with
    | nil => simp
    | cons s' ss =>
      rw [List.dropLast_cons_cons, weight_cons, weight_cons s]
      exact Nat.add_le_add_left ih _

theorem weight_dropDot_le (output : List (List Char)) (component : List Char) :
    weight (dropDot output component) ≤ weight output + (component.length + 1) := by
  unfold dropDot
  split
  · omega
  · split
    · split
      · exact (weight_dropLast_le output).trans (Nat.le_add_right _ _)
      · omega
    · simp

/-- A dot segment takes its own weight away. -/
theorem weight_dropDot_lt {output : List (List Char)} {component : List Char}
    (h : component = ['.'] ∨ component = ['.', '.']) :
    weight (dropDot output component) < weight output + (component.length + 1) := by
  unfold dropDot
  split
  · omega
  · split
    · split
      · exact lt_of_le_of_lt (weight_dropLast_le output) (by omega)
      · omega
    · rename_i h1 h2
      exact absurd h (by simp [h1, h2])

theorem weight_foldl_le (components output : List (List Char)) :
    weight (components.foldl dropDot output) ≤ weight output + weight components := by
  induction components generalizing output with
  | nil => simp
  | cons c cs ih =>
    have hc := weight_dropDot_le output c
    have hcs := ih (dropDot output c)
    rw [List.foldl_cons, weight_cons]
    omega

theorem weight_foldl_lt {components : List (List Char)} (output : List (List Char))
    (h : ['.'] ∈ components ∨ ['.', '.'] ∈ components) :
    weight (components.foldl dropDot output) < weight output + weight components := by
  induction components generalizing output with
  | nil => simp at h
  | cons c cs ih =>
    rw [List.foldl_cons, weight_cons]
    by_cases hc : c = ['.'] ∨ c = ['.', '.']
    · have hdrop : weight (dropDot output c) < weight output + (c.length + 1) :=
        weight_dropDot_lt hc
      have hcs := weight_foldl_le cs (dropDot output c)
      omega
    · have hmem : ['.'] ∈ cs ∨ ['.', '.'] ∈ cs := by
        rcases h with h | h
        · exact Or.inl ((List.mem_cons.mp h).resolve_left fun e => hc (Or.inl e.symm))
        · exact Or.inr ((List.mem_cons.mp h).resolve_left fun e => hc (Or.inr e.symm))
      have hdrop := weight_dropDot_le output c
      have hcs := ih (dropDot output c) hmem
      omega

/-- Dropping dot segments shortens, or changes nothing. -/
theorem normalizePath_length (path : List Char) :
    (normalizePath path).length < path.length ∨ normalizePath path = path := by
  unfold normalizePath
  dsimp only
  split
  · exact Or.inr rfl
  · rename_i h
    have hdots : ['.'] ∈ path.splitOn '/' ∨ ['.', '.'] ∈ path.splitOn '/' := by
      by_contra hno
      exact h (not_or.mp hno)
    have hweight := weight_foldl_lt [] hdots
    rw [weight_nil, weight_splitOn] at hweight
    rw [length_intercalate]
    have hpos : 0 < path.length := by
      rcases Nat.eq_zero_or_pos path.length with h0 | h0
      · rw [List.length_eq_zero_iff.mp h0] at hdots
        simp at hdots
      · exact h0
    left
    omega

/-! ## Percent escapes -/

/-- The value of a hexadecimal digit. -/
def hexVal (c : Char) : Option ℕ :=
  let n := c.toNat
  if 48 ≤ n ∧ n ≤ 57 then some (n - 48)
  else if 65 ≤ n ∧ n ≤ 70 then some (n - 55)
  else if 97 ≤ n ∧ n ≤ 102 then some (n - 87)
  else none

/-- A piece of a path: a character that stands for itself, or an escaped byte. -/
inductive Piece where
  | char (c : Char)
  | byte (b : ℕ)
  deriving DecidableEq, Repr

/-- Whether the text starts with a `%XX` escape. -/
def startsEscape : List Char → Bool
  | '%' :: x :: y :: _ => (hexVal x).isSome && (hexVal y).isSome
  | _ => false

/-- Whether the text has a `%XX` escape anywhere. -/
def hasEscape : List Char → Bool
  | [] => false
  | c :: cs => startsEscape (c :: cs) || hasEscape cs

/-- Reading the `%XX` escapes of a path; a `%` that starts none stands for itself. -/
def pieces : List Char → List Piece
  | [] => []
  | c :: cs =>
    match c, cs with
    | '%', x :: y :: rest =>
      match hexVal x, hexVal y with
      | some h, some l => .byte (16 * h + l) :: pieces rest
      | _, _ => .char '%' :: pieces (x :: y :: rest)
    | c, cs => .char c :: pieces cs

theorem pieces_cons {c : Char} {cs : List Char} (h : startsEscape (c :: cs) = false) :
    pieces (c :: cs) = .char c :: pieces cs := by
  conv_lhs => unfold pieces
  split
  · rename_i x y rest
    simp only [startsEscape, Bool.and_eq_false_iff] at h
    split
    · rename_i hx hy
      simp [hx, hy] at h
    · rfl
  · rfl

theorem pieces_escape {c : Char} {cs : List Char} (h : startsEscape (c :: cs) = true) :
    ∃ x y rest b, cs = x :: y :: rest ∧ pieces (c :: cs) = .byte b :: pieces rest := by
  unfold startsEscape at h
  split at h
  · rename_i x y rest heq
    cases heq
    obtain ⟨hx, hy⟩ := Bool.and_eq_true_iff.mp h
    obtain ⟨hi, hhi⟩ := Option.isSome_iff_exists.mp hx
    obtain ⟨lo, hlo⟩ := Option.isSome_iff_exists.mp hy
    exact ⟨x, y, rest, 16 * hi + lo, rfl, by simp [pieces, hhi, hlo]⟩
  · cases h

theorem pieces_of_no_escape {cs : List Char} (h : hasEscape cs = false) :
    pieces cs = cs.map .char := by
  induction cs with
  | nil => rfl
  | cons c cs ih =>
    obtain ⟨hstart, hrest⟩ := Bool.or_eq_false_iff.mp h
    rw [pieces_cons hstart, ih hrest, List.map_cons]

/-- Reading escapes shortens, or there are none. -/
theorem pieces_length (cs : List Char) :
    (pieces cs).length ≤ cs.length ∧ (hasEscape cs = true → (pieces cs).length < cs.length) := by
  induction hn : cs.length using Nat.strong_induction_on generalizing cs with
  | _ n ih =>
    cases cs with
    | nil => simp [pieces, hasEscape]
    | cons c cs =>
      rw [List.length_cons] at hn
      cases hstart : startsEscape (c :: cs) with
      | true =>
        obtain ⟨x, y, rest, b, rfl, hpieces⟩ := pieces_escape hstart
        simp only [List.length_cons] at hn
        have hrest := (ih rest.length (by omega) rest rfl).1
        rw [hpieces, List.length_cons]
        constructor
        · omega
        · intro _
          omega
      | false =>
        obtain ⟨hle, hlt⟩ := ih cs.length (by omega) cs rfl
        rw [pieces_cons hstart, List.length_cons]
        refine ⟨by omega, fun hesc => ?_⟩
        have hrest : hasEscape cs = true := by simpa [hasEscape, hstart] using hesc
        have := hlt hrest
        omega

theorem hasEscape_append_left (a : List Char) {b : List Char} (h : hasEscape b = true) :
    hasEscape (a ++ b) = true := by
  induction a with
  | nil => exact h
  | cons c cs ih => simp [hasEscape, ih]

theorem startsEscape_append {a : List Char} (b : List Char) (h : startsEscape a = true) :
    startsEscape (a ++ b) = true := by
  unfold startsEscape at h
  split at h
  · simpa [startsEscape] using h
  · cases h

theorem hasEscape_append_right {a : List Char} (b : List Char) (h : hasEscape a = true) :
    hasEscape (a ++ b) = true := by
  induction a with
  | nil => simp [hasEscape] at h
  | cons c cs ih =>
    rcases Bool.or_eq_true_iff.mp h with h | h
    · have hstart : startsEscape (c :: cs ++ b) = true := startsEscape_append b h
      exact Bool.or_eq_true_iff.mpr (Or.inl hstart)
    · simp [hasEscape, ih h]

/-- No escape can start in a text and end beyond a separator that follows it. -/
theorem hasEscape_append_slash {a b : List Char} (ha : hasEscape a = false)
    (hb : hasEscape ('/' :: b) = false) : hasEscape (a ++ '/' :: b) = false := by
  induction a with
  | nil => exact hb
  | cons c cs ih =>
    obtain ⟨hstart, hrest⟩ := Bool.or_eq_false_iff.mp ha
    have hslash : hexVal '/' = none := rfl
    have hhead : startsEscape (c :: cs ++ '/' :: b) = false := by
      match cs with
      | [] =>
        unfold startsEscape
        split
        · rename_i heq
          cases heq
          simp [hslash]
        · rfl
      | [x] =>
        unfold startsEscape
        split
        · rename_i heq
          cases heq
          simp [hslash]
        · rfl
      | x :: y :: rest =>
        unfold startsEscape at hstart ⊢
        split
        · rename_i heq
          cases heq
          exact hstart
        · rfl
    exact Bool.or_eq_false_iff.mpr ⟨hhead, ih hrest⟩

/-! ## Decoding -/

/-- What a UTF-8 lead byte announces: how many bytes follow, the range of the first of them, and
the bits it carries itself. -/
def leadByte (b : ℕ) : Option (ℕ × ℕ × ℕ × ℕ) :=
  if 0xC2 ≤ b ∧ b ≤ 0xDF then some (1, 0x80, 0xBF, b - 0xC0)
  else if b = 0xE0 then some (2, 0xA0, 0xBF, 0)
  else if b = 0xED then some (2, 0x80, 0x9F, 0xD)
  else if 0xE1 ≤ b ∧ b ≤ 0xEF then some (2, 0x80, 0xBF, b - 0xE0)
  else if b = 0xF0 then some (3, 0x90, 0xBF, 0)
  else if 0xF1 ≤ b ∧ b ≤ 0xF3 then some (3, 0x80, 0xBF, b - 0xF0)
  else if b = 0xF4 then some (3, 0x80, 0x8F, 4)
  else none

/-- Reading `k` continuation bytes; on failure, what was not consumed. -/
def continuation : ℕ → ℕ → ℕ → ℕ → List Piece → Option ℕ × List Piece
  | 0, _, _, code, ps => (some code, ps)
  | k + 1, lo, hi, code, .byte b :: ps =>
    if lo ≤ b ∧ b ≤ hi then continuation k 0x80 0xBF (64 * code + (b - 0x80)) ps
    else (none, .byte b :: ps)
  | _ + 1, _, _, _, ps => (none, ps)

/-- Decoding escaped bytes as UTF-8, each malformed part as one replacement character. -/
def decode : ℕ → List Piece → List Char
  | 0, _ => []
  | _ + 1, [] => []
  | n + 1, .char c :: ps => c :: decode n ps
  | n + 1, .byte b :: ps =>
    if b < 0x80 then Char.ofNat b :: decode n ps
    else match leadByte b with
      | none => '\uFFFD' :: decode n ps
      | some (k, lo, hi, bits) =>
        let (code, rest) := continuation k lo hi bits ps
        code.elim '\uFFFD' Char.ofNat :: decode n rest

/-- The path a server routes on. -/
def decodePath (path : List Char) : List Char := decode path.length (pieces path)

theorem continuation_length (k lo hi code : ℕ) (ps : List Piece) :
    (continuation k lo hi code ps).2.length ≤ ps.length := by
  fun_induction continuation k lo hi code ps with
  | case1 => exact le_refl _
  | case2 _ _ _ _ _ _ _ ih => exact ih.trans (Nat.le_succ _)
  | case3 => exact le_refl _
  | case4 => exact le_refl _

theorem decode_length (n : ℕ) (ps : List Piece) : (decode n ps).length ≤ ps.length := by
  induction n generalizing ps with
  | zero => exact Nat.zero_le _
  | succ n ih =>
    match ps with
    | [] => exact Nat.zero_le _
    | .char c :: ps => exact Nat.succ_le_succ (ih ps)
    | .byte b :: ps =>
      unfold decode
      split
      · exact Nat.succ_le_succ (ih ps)
      · split
        · exact Nat.succ_le_succ (ih ps)
        · rename_i k lo hi bits _
          exact Nat.succ_le_succ ((ih _).trans (continuation_length k lo hi bits ps))

theorem decode_chars {n : ℕ} {cs : List Char} (h : cs.length ≤ n) :
    decode n (cs.map .char) = cs := by
  induction cs generalizing n with
  | nil => cases n <;> rfl
  | cons c cs ih =>
    obtain ⟨m, rfl⟩ : ∃ m, n = m + 1 := ⟨n - 1, by simp at h; omega⟩
    exact congrArg (c :: ·) (ih (Nat.le_of_succ_le_succ h))

theorem decodePath_of_no_escape {path : List Char} (h : hasEscape path = false) :
    decodePath path = path := by
  rw [decodePath, pieces_of_no_escape h, decode_chars (le_refl _)]

/-- Decoding shortens, or there was nothing to decode. -/
theorem decodePath_length (path : List Char) :
    (decodePath path).length < path.length ∨ (hasEscape path = false ∧ decodePath path = path) := by
  cases h : hasEscape path with
  | true =>
    exact Or.inl ((decode_length _ _).trans_lt ((pieces_length path).2 h))
  | false => exact Or.inr ⟨rfl, decodePath_of_no_escape h⟩

theorem length_le_of_shorter {a b : List Char} (h : a.length < b.length ∨ a = b) :
    a.length ≤ b.length :=
  h.elim le_of_lt fun e => e ▸ le_refl _

/-- **Full length means unchanged.**  A target that reaches the router at its full length has lost
nothing on the way: it has no query, no fragment, no dot segment and no escape. -/
theorem arrives_unchanged {target : List Char}
    (h : target.length ≤ (decodePath (normalizePath (cutTarget target))).length) :
    decodePath (normalizePath (cutTarget target)) = target ∧ '?' ∉ target ∧ '#' ∉ target ∧
      hasEscape target = false := by
  have hdecode := decodePath_length (normalizePath (cutTarget target))
  have hnorm := length_le_of_shorter (normalizePath_length (cutTarget target))
  have hdecodeLe := length_le_of_shorter (hdecode.imp_right And.right)
  have hcut : cutTarget target = target :=
    (cutTarget_length target).resolve_left fun hlt =>
      absurd h (not_le.mpr (lt_of_le_of_lt (hdecodeLe.trans hnorm) hlt))
  rw [hcut] at hdecode hdecodeLe h ⊢
  have hnorm' : normalizePath target = target :=
    (normalizePath_length target).resolve_left fun hlt =>
      absurd h (not_le.mpr (lt_of_le_of_lt hdecodeLe hlt))
  rw [hnorm'] at hdecode h ⊢
  obtain ⟨hesc, hsame⟩ := hdecode.resolve_left (not_lt.mpr h)
  obtain ⟨hq, hh⟩ := cutTarget_eq_self.mp hcut
  exact ⟨hsame, hq, hh, hesc⟩

/-! ## Paths of plain segments -/

/-- Nothing in the segment means anything to a URL. -/
def PlainSegment (segment : List Char) : Prop :=
  '/' ∉ segment ∧ '?' ∉ segment ∧ '#' ∉ segment ∧ hasEscape segment = false

instance (segment : List Char) : Decidable (PlainSegment segment) :=
  inferInstanceAs (Decidable (_ ∧ _))

/-- The path with these segments. -/
def joinPath (segments : List (List Char)) : List Char := ['/'].intercalate segments

theorem joinPath_cons (segment : List Char) {segments : List (List Char)} (h : segments ≠ []) :
    joinPath (segment :: segments) = segment ++ '/' :: joinPath segments := by
  obtain ⟨next, rest, rfl⟩ := List.exists_cons_of_ne_nil h
  simp [joinPath]

@[simp] theorem joinPath_singleton (segment : List Char) : joinPath [segment] = segment := by
  simp [joinPath]

theorem mem_joinPath {c : Char} (hc : c ≠ '/') {segments : List (List Char)} :
    c ∈ joinPath segments ↔ ∃ segment ∈ segments, c ∈ segment := by
  induction segments with
  | nil => simp [joinPath]
  | cons segment segments ih =>
    by_cases hnil : segments = []
    · simp [hnil]
    · rw [joinPath_cons segment hnil, List.mem_append, List.mem_cons, ih]
      simp [hc]

theorem any_joinPath {p : Char → Bool} (hp : p '/' = false) (segments : List (List Char)) :
    (joinPath segments).any p = segments.any fun segment => segment.any p := by
  induction segments with
  | nil => rfl
  | cons segment segments ih =>
    by_cases hnil : segments = []
    · simp [hnil]
    · rw [joinPath_cons segment hnil, List.any_append, List.any_cons, hp, Bool.false_or, ih,
        List.any_cons]

theorem hasEscape_joinPath {segments : List (List Char)} :
    hasEscape (joinPath segments) = false ↔ ∀ segment ∈ segments, hasEscape segment = false := by
  induction segments with
  | nil => simp [joinPath, hasEscape]
  | cons segment segments ih =>
    by_cases hnil : segments = []
    · simp [hnil]
    · rw [joinPath_cons segment hnil]
      constructor
      · intro h
        have hrest : hasEscape (joinPath segments) = false := by
          refine Bool.eq_false_iff.mpr fun htrue => absurd h ?_
          rw [hasEscape_append_left segment (b := '/' :: joinPath segments)
            (Bool.or_eq_true_iff.mpr (Or.inr htrue))]
          exact Bool.noConfusion
        have hsegment : hasEscape segment = false := by
          refine Bool.eq_false_iff.mpr fun htrue => absurd h ?_
          rw [hasEscape_append_right ('/' :: joinPath segments) htrue]
          exact Bool.noConfusion
        intro s hs
        rcases List.mem_cons.mp hs with rfl | hs
        · exact hsegment
        · exact ih.mp hrest s hs
      · intro h
        have hrest := ih.mpr fun s hs => h s (List.mem_cons_of_mem _ hs)
        exact hasEscape_append_slash (h segment List.mem_cons_self)
          (Bool.or_eq_false_iff.mpr ⟨rfl, hrest⟩)

theorem splitOn_joinPath {segments : List (List Char)} (hne : segments ≠ [])
    (h : ∀ segment ∈ segments, '/' ∉ segment) : (joinPath segments).splitOn '/' = segments :=
  List.splitOn_intercalate '/' h hne

/-- **Plain paths arrive.**  A path of plain segments none of which is a dot segment is routed on as
it was asked for. -/
theorem plain_arrives_at {segments : List (List Char)} (hne : segments ≠ [])
    (hplain : ∀ segment ∈ segments, PlainSegment segment) (hdot : ['.'] ∉ segments)
    (hdots : ['.', '.'] ∉ segments) :
    decodePath (normalizePath (cutTarget (joinPath segments))) = joinPath segments := by
  have hcut : cutTarget (joinPath segments) = joinPath segments := by
    refine cutTarget_eq_self.mpr ⟨fun h => ?_, fun h => ?_⟩
    · obtain ⟨segment, hsegment, hmem⟩ := (mem_joinPath (by decide)).mp h
      exact (hplain segment hsegment).2.1 hmem
    · obtain ⟨segment, hsegment, hmem⟩ := (mem_joinPath (by decide)).mp h
      exact (hplain segment hsegment).2.2.1 hmem
  have hnormal : normalizePath (joinPath segments) = joinPath segments := by
    rw [normalizePath]
    rw [splitOn_joinPath hne fun s hs => (hplain s hs).1, if_pos ⟨hdot, hdots⟩]
  rw [hcut, hnormal, decodePath_of_no_escape (hasEscape_joinPath.mpr fun s hs =>
    (hplain s hs).2.2.2)]

/-- **Only plain paths arrive** at their full length, but for separators in segments. -/
theorem plain_of_arrives {segments : List (List Char)}
    (h : (joinPath segments).length ≤
      (decodePath (normalizePath (cutTarget (joinPath segments)))).length)
    {segment : List Char} (hsegment : segment ∈ segments) (hslash : '/' ∉ segment) :
    PlainSegment segment := by
  obtain ⟨-, hquery, hfragment, hescape⟩ := arrives_unchanged h
  exact ⟨hslash, fun hmem => hquery ((mem_joinPath (by decide)).mpr ⟨segment, hsegment, hmem⟩),
    fun hmem => hfragment ((mem_joinPath (by decide)).mpr ⟨segment, hsegment, hmem⟩),
    hasEscape_joinPath.mp hescape segment hsegment⟩

end UrlPath
