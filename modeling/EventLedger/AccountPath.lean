import EventLedger.Models
import EventLedger.UrlPath

/-!
# The account a submission lands on

The Gateway's client puts the account id unescaped into the path
`/accounts/{account_id}/transactions`, and the Account Service's router takes it
out again.  `accountRoute` is the whole way from one to the other: the client may
refuse to build the URL (`refusesUrl`: a control character, or more characters than
it allows), the text is cut at `?` and `#`, dot segments are removed, escapes are
decoded, and a pattern of the router has to match what is left.

The id that comes out is the id that went in exactly for `Plain` ids: no `/`, `?` or
`#` and no `%XX` escape (`routed_account_iff`).
-/
namespace EventLedger

open UrlPath

/-! ## From the id to the route -/

/-- `accounts`. -/
def accountsSegment : List Char := ['a', 'c', 'c', 'o', 'u', 'n', 't', 's']

/-- `transactions`. -/
def transactionsSegment : List Char :=
  ['t', 'r', 'a', 'n', 's', 'a', 'c', 't', 'i', 'o', 'n', 's']

/-- `f"/accounts/{account_id}/transactions"`. -/
def transactionsPath (accountId : List Char) : List Char :=
  '/' :: accountsSegment ++ '/' :: (accountId ++ '/' :: transactionsSegment)

/-- A character the HTTP client refuses in a URL. -/
def isControl (c : Char) : Bool := c.toNat < 32 || c.toNat = 127

/-- The longest URL the HTTP client accepts, and the longest path and query in it. -/
def maxUrlLength : ℕ := 65536

/-- A character the HTTP client leaves as it is in a path: printable, and none of `"#<>?`, the
backtick and the braces. -/
def keptInPath (c : Char) : Bool :=
  32 < c.toNat && c.toNat < 127 && c.toNat ∉ [34, 35, 60, 62, 63, 96, 123, 125]

/-- The same for a query: printable, and none of `"#<>`. -/
def keptInQuery (c : Char) : Bool :=
  32 < c.toNat && c.toNat < 127 && c.toNat ∉ [34, 35, 60, 62]

/-- The length of a text whose other characters are escaped, three characters for each byte. -/
def quotedLength (kept : Char → Bool) (text : List Char) : ℕ :=
  (text.map fun c => if kept c then 1 else 3 * c.utf8Size).sum

/-- The query of a target. -/
def queryOf (target : List Char) : List Char :=
  match target.dropWhile fun c => c ≠ '?' ∧ c ≠ '#' with
  | '?' :: query => query.takeWhile (· ≠ '#')
  | _ => []

/-- The client refuses the URL: for a control character, or because it, its path or its query is too
long. -/
def refusesUrl (target : List Char) : Bool :=
  target.any isControl || maxUrlLength < target.length ||
    maxUrlLength < quotedLength keptInPath (cutTarget target) ||
    maxUrlLength < quotedLength keptInQuery (queryOf target)

/-- The fixed last segment of a route template; the template's `$` also stands before a final
newline. -/
def matchesLast (literal segment : List Char) : Bool :=
  segment = literal || segment = literal ++ ['\n']

/-- `POST /accounts/{account_id}/transactions`: the id its segments bind. -/
def matchTransactions : List (List Char) → Option (List Char)
  | [[], accounts, accountId, last] =>
    if accounts = accountsSegment ∧ accountId ≠ [] ∧ matchesLast transactionsSegment last then
      some accountId
    else none
  | _ => none

/-- Whether the path matches one of the `GET` routes of the Account Service. -/
def matchesGet : List (List Char) → Bool
  | [[], last] =>
    ["health", "metrics", "audit", "openapi.json", "docs", "redoc"].any
      fun name => matchesLast name.toList last
  | [[], first, last] =>
    (first = accountsSegment && last ≠ []) ||
      (first = "docs".toList && matchesLast "oauth2-redirect".toList last)
  | [[], accounts, accountId, last] =>
    accounts = accountsSegment && accountId ≠ [] && matchesLast "balance".toList last
  | _ => false

/-- The same path with its trailing slash added or removed, which the router tries next. -/
def toggleSlash (path : List Char) : List Char :=
  if path.getLast? = some '/' then (path.reverse.dropWhile (· = '/')).reverse else path ++ ['/']

/-- How the router answers a `POST` it has no route for. -/
inductive Refusal where
  | methodNotAllowed
  | redirectSlashes
  | notFound
  deriving DecidableEq, Repr

/-- What becomes of a `POST` to a path. -/
inductive Routed where
  /-- The client refuses the URL. -/
  | invalidUrl
  /-- `apply_transaction` is called with this account id. -/
  | account (accountId : String)
  /-- No `POST` route matches. -/
  | unmatched (refusal : Refusal)
  deriving DecidableEq, Repr

/-- The Account Service's router on a decoded path. -/
def routePath (path : List Char) : Routed :=
  match matchTransactions (path.splitOn '/') with
  | some accountId => .account (String.ofList accountId)
  | none =>
    if matchesGet (path.splitOn '/') then .unmatched .methodNotAllowed
    else if path ≠ ['/'] ∧ (matchesGet ((toggleSlash path).splitOn '/') ∨
        (matchTransactions ((toggleSlash path).splitOn '/')).isSome) then
      .unmatched .redirectSlashes
    else .unmatched .notFound

/-- From the account id of a submission to the route its transaction takes. -/
def accountRoute (accountId : String) : Routed :=
  let target := transactionsPath accountId.toList
  if refusesUrl target then .invalidUrl
  else routePath (decodePath (normalizePath (cutTarget target)))

/-- Nothing in the id means anything to a URL. -/
def Plain (accountId : String) : Prop :=
  '/' ∉ accountId.toList ∧ '?' ∉ accountId.toList ∧ '#' ∉ accountId.toList ∧
    hasEscape accountId.toList = false

instance (accountId : String) : Decidable (Plain accountId) := inferInstanceAs (Decidable (_ ∧ _))

/-! ## Taking the path apart -/

theorem routePath_account {path : List Char} {b : String} (h : routePath path = .account b) :
    matchTransactions (path.splitOn '/') = some b.toList := by
  unfold routePath at h
  split at h
  · rename_i accountId hmatch
    cases h
    rw [hmatch, String.toList_ofList]
  · split_ifs at h

theorem matchTransactions_eq_some {segments : List (List Char)} {b : List Char}
    (h : matchTransactions segments = some b) :
    ∃ last, segments = [[], accountsSegment, b, last] ∧ b ≠ [] ∧
      matchesLast transactionsSegment last = true := by
  unfold matchTransactions at h
  split at h
  · rename_i accounts accountId last
    split at h
    · rename_i hcond
      obtain ⟨rfl, hne, hlast⟩ := hcond
      cases h
      exact ⟨last, rfl, hne, hlast⟩
    · cases h
  · cases h

/-- A path that binds `b` has `b` in it whole, between the fixed parts. -/
theorem path_of_match {path b : List Char} (h : matchTransactions (path.splitOn '/') = some b) :
    '/' ∉ b ∧ ∃ last, path = '/' :: accountsSegment ++ '/' :: (b ++ '/' :: last) ∧
      matchesLast transactionsSegment last = true := by
  obtain ⟨last, hsegments, -, hlast⟩ := matchTransactions_eq_some h
  have hjoin : ['/'].intercalate (path.splitOn '/') = path := List.intercalate_splitOn '/'
  rw [hsegments] at hjoin
  have hmem : b ∈ path.splitOn '/' := by simp [hsegments]
  refine ⟨slash_notMem_segment hmem, last, ?_, hlast⟩
  rw [← hjoin]
  simp

theorem matchesLast_length {literal segment : List Char} (h : matchesLast literal segment = true) :
    literal.length ≤ segment.length := by
  rcases Bool.or_eq_true_iff.mp h with h | h
  · rw [of_decide_eq_true h]
  · rw [of_decide_eq_true h, List.length_append]
    exact Nat.le_add_right _ _

theorem segments_of_slash_notMem {a : List Char} (h : '/' ∉ a) :
    (transactionsPath a).splitOn '/' = [[], accountsSegment, a, transactionsSegment] := by
  have hjoin : transactionsPath a =
      ['/'].intercalate [[], accountsSegment, a, transactionsSegment] := by
    simp [transactionsPath]
  rw [hjoin]
  refine List.splitOn_intercalate '/' (fun s hs => ?_) (List.cons_ne_nil _ _)
  rcases List.mem_cons.mp hs with rfl | hs
  · exact List.not_mem_nil
  rcases List.mem_cons.mp hs with rfl | hs
  · decide
  rcases List.mem_cons.mp hs with rfl | hs
  · exact h
  rw [List.mem_singleton.mp hs]
  decide

/-- The path of a plain id has no dot segment unless the id is one itself. -/
theorem normalizePath_transactionsPath {a : List Char} (hslash : '/' ∉ a) (hdot : a ≠ ['.'])
    (hdots : a ≠ ['.', '.']) : normalizePath (transactionsPath a) = transactionsPath a := by
  unfold normalizePath
  dsimp only
  rw [segments_of_slash_notMem hslash, if_pos]
  refine ⟨fun h => ?_, fun h => ?_⟩
  · simp [hdot.symm, accountsSegment, transactionsSegment] at h
  · simp [hdots.symm, accountsSegment, transactionsSegment] at h

theorem hasEscape_transactionsPath {a : List Char} :
    hasEscape (transactionsPath a) = false ↔ hasEscape a = false := by
  constructor
  · intro h
    refine Bool.eq_false_iff.mpr fun ha => absurd h ?_
    have htail := hasEscape_append_right ('/' :: transactionsSegment) ha
    have hpath := hasEscape_append_left ('/' :: accountsSegment ++ ['/']) htail
    simpa [transactionsPath] using hpath
  · intro h
    have htail : hasEscape ('/' :: transactionsSegment) = false := by decide
    have hmiddle : hasEscape ('/' :: (a ++ '/' :: transactionsSegment)) = false :=
      Bool.or_eq_false_iff.mpr ⟨rfl, hasEscape_append_slash h htail⟩
    exact hasEscape_append_slash (a := '/' :: accountsSegment) (by decide) hmiddle

theorem notMem_transactionsPath {a : List Char} {c : Char} (hslash : c ≠ '/')
    (haccounts : c ∉ accountsSegment) (htransactions : c ∉ transactionsSegment) :
    c ∉ transactionsPath a ↔ c ∉ a := by
  simp [transactionsPath, hslash, haccounts, htransactions]

/-- A plain id that is no dot segment arrives at the router as it was sent. -/
theorem plain_arrives {a : String} (h : Plain a) (hdot : a.toList ≠ ['.'])
    (hdots : a.toList ≠ ['.', '.']) :
    decodePath (normalizePath (cutTarget (transactionsPath a.toList))) =
      transactionsPath a.toList := by
  obtain ⟨hslash, hquery, hfragment, hescape⟩ := h
  have hcut : cutTarget (transactionsPath a.toList) = transactionsPath a.toList :=
    cutTarget_eq_self.mpr
      ⟨(notMem_transactionsPath (by decide) (by decide) (by decide)).mpr hquery,
       (notMem_transactionsPath (by decide) (by decide) (by decide)).mpr hfragment⟩
  rw [hcut, normalizePath_transactionsPath hslash hdot hdots,
    decodePath_of_no_escape (hasEscape_transactionsPath.mpr hescape)]

theorem accountRoute_eq_account {a b : String} (h : accountRoute a = .account b) :
    matchTransactions ((decodePath (normalizePath (cutTarget
      (transactionsPath a.toList)))).splitOn '/') = some b.toList := by
  unfold accountRoute at h
  dsimp only at h
  split at h
  · cases h
  · exact routePath_account h

/-- An id that is a dot segment is swallowed: the path has too few segments left. -/
theorem dot_unmatched : matchTransactions ((decodePath (normalizePath (cutTarget
    (transactionsPath ['.'])))).splitOn '/') = none := by
  decide +kernel

theorem dots_unmatched : matchTransactions ((decodePath (normalizePath (cutTarget
    (transactionsPath ['.', '.'])))).splitOn '/') = none := by
  decide +kernel

/-- A plain id is routed to itself, if it is routed at all. -/
theorem routed_of_plain {a b : String} (hplain : Plain a) (h : accountRoute a = .account b) :
    b = a := by
  have hmatch := accountRoute_eq_account h
  have hdot : a.toList ≠ ['.'] := by
    intro e
    rw [e, dot_unmatched] at hmatch
    cases hmatch
  have hdots : a.toList ≠ ['.', '.'] := by
    intro e
    rw [e, dots_unmatched] at hmatch
    cases hmatch
  rw [plain_arrives hplain hdot hdots, segments_of_slash_notMem hplain.1] at hmatch
  obtain ⟨last, hsegments, -, -⟩ := matchTransactions_eq_some hmatch
  simp only [List.cons.injEq] at hsegments
  exact (String.toList_inj.mp hsegments.2.2.1).symm

/-- **The account credited.**  Whenever a submission reaches `apply_transaction`, the account it is
applied to is the one it names precisely for plain account ids. -/
theorem routed_account_iff (body : EventRequest) (b : String)
    (h : accountRoute body.accountId = .account b) :
    b = body.accountId ↔ Plain body.accountId := by
  have hmatch := accountRoute_eq_account h
  obtain ⟨hslash, last, hpath, hlast⟩ := path_of_match hmatch
  constructor
  · intro hb
    rw [hb] at hslash hpath
    -- the routed path is as long as the target, so nothing was cut, dropped or decoded
    have hlen : (transactionsPath body.accountId.toList).length ≤ (decodePath (normalizePath
        (cutTarget (transactionsPath body.accountId.toList)))).length := by
      have := matchesLast_length hlast
      rw [hpath]
      simp only [transactionsPath, List.length_append, List.length_cons]
      omega
    obtain ⟨-, hquery, hfragment, hescape⟩ := arrives_unchanged hlen
    exact ⟨hslash, (notMem_transactionsPath (by decide) (by decide) (by decide)).mp hquery,
      (notMem_transactionsPath (by decide) (by decide) (by decide)).mp hfragment,
      hasEscape_transactionsPath.mp hescape⟩
  · intro hplain
    exact routed_of_plain hplain h

theorem routed_account_iff_sample :
    accountRoute sampleEvent.accountId = .account "acct-123" ∧ Plain sampleEvent.accountId :=
  ⟨by decide +kernel, (routed_account_iff sampleEvent "acct-123" (by decide +kernel)).mp rfl⟩

/-- The sample submission, for the account `x/transactions?`. -/
def divertedEvent : EventRequest :=
  { sampleEvent with accountId := "x/transactions?",
                     accountId_stripped := ⟨"x/transactions?", by decide⟩ }

/-- Everything after the `?` is a query, and account `x` is credited. -/
theorem query_diverts_account :
    ¬ ∀ (body : EventRequest) (b : String),
      accountRoute body.accountId = .account b → b = body.accountId := by
  intro h
  have hx := h divertedEvent "x" (by decide +kernel)
  exact absurd hx (by decide)

end EventLedger
