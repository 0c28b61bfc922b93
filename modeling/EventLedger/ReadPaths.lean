import EventLedger.AccountPath

/-!
# The account a read is about

The client reads a balance at `/accounts/{account_id}/balance` and an account at
`/accounts/{account_id}`, with the id unescaped as in the path of a transaction.
The three requests about an account go to that account for the same ids, the
`Routable` ones, but for the length the client allows a URL: the shorter the path
around the id, the more room is left to the id (`reads_routed`).  A read never
shows another account than the one a transaction for the same id would be applied
to.
-/
namespace EventLedger

open UrlPath

/-! ## From the id to the route -/

/-- `balance`. -/
def balanceSegment : List Char := ['b', 'a', 'l', 'a', 'n', 'c', 'e']

/-- `f"/accounts/{account_id}/balance"`. -/
def balancePath (accountId : String) : String := "/accounts/" ++ accountId ++ "/balance"

/-- `f"/accounts/{account_id}"`. -/
def accountPath (accountId : String) : String := "/accounts/" ++ accountId

/-- `GET /accounts/{account_id}/balance`: the id its segments bind. -/
def matchBalance : List (List Char) → Option (List Char)
  | [[], accounts, accountId, last] =>
    if accounts = accountsSegment ∧ accountId ≠ [] ∧ matchesLast balanceSegment last then
      some accountId
    else none
  | _ => none

/-- `GET /accounts/{account_id}`: the id its segments bind. -/
def matchAccount : List (List Char) → Option (List Char)
  | [[], accounts, accountId] =>
    if accounts = accountsSegment ∧ accountId ≠ [] then some accountId else none
  | _ => none

/-- What becomes of a `GET` of the client. -/
inductive ReadRoute where
  /-- The client refuses the URL. -/
  | invalidUrl
  /-- `get_balance` is called with this account id. -/
  | balance (accountId : String)
  /-- `get_account` is called with this account id. -/
  | account (accountId : String)
  /-- Another endpoint is called, or none is. -/
  | elsewhere
  deriving DecidableEq, Repr

/-- The segments the router sees. -/
def routedSegments (target : List Char) : List (List Char) :=
  (decodePath (normalizePath (cutTarget target))).splitOn '/'

/-- From the path of a read to its route. -/
def readRoute (path : String) : ReadRoute :=
  if refusesUrl path.toList then .invalidUrl
  else match matchBalance (routedSegments path.toList) with
    | some accountId => .balance (String.ofList accountId)
    | none =>
      match matchAccount (routedSegments path.toList) with
      | some accountId => .account (String.ofList accountId)
      | none => .elsewhere

/-- The requests about the account that leave this much room to its id go to the account. -/
def Routable (room : ℕ) (accountId : String) : Prop :=
  Plain accountId ∧ accountId ≠ "" ∧ accountId ≠ "." ∧ accountId ≠ ".." ∧
    accountId.toList.any isControl = false ∧ quotedLength keptInPath accountId.toList ≤ room

instance (room : ℕ) (accountId : String) : Decidable (Routable room accountId) :=
  inferInstanceAs (Decidable (_ ∧ _))

/-- What the path of a transaction leaves to the id. -/
def transactionsRoom : ℕ := 65513

/-- What the path of a balance leaves to the id. -/
def balanceRoom : ℕ := 65518

/-- What the path of an account leaves to the id. -/
def accountRoom : ℕ := 65526

/-! ## The segments of a request -/

/-- The segments of a request about an account. -/
def requestSegments (accountId : String) (suffix : List (List Char)) : List (List Char) :=
  [] :: accountsSegment :: accountId.toList :: suffix

/-- What follows the id in the requests. -/
def suffixes : List (List (List Char)) := [[transactionsSegment], [balanceSegment], []]

section
variable {a b : String} {suffix rest : List (List Char)}

theorem transactionsPath_eq (a : String) : transactionsPath a.toList =
    joinPath (requestSegments a [transactionsSegment]) := by
  simp [transactionsPath, requestSegments, joinPath]

theorem balancePath_toList (a : String) :
    (balancePath a).toList = joinPath (requestSegments a [balanceSegment]) := by
  rw [balancePath, String.toList_append, String.toList_append]
  simp [requestSegments, joinPath, accountsSegment, balanceSegment]

theorem accountPath_toList (a : String) :
    (accountPath a).toList = joinPath (requestSegments a []) := by
  rw [accountPath, String.toList_append]
  simp [requestSegments, joinPath, accountsSegment]

/-- **Arriving.**  The requests about a plain id that is no dot segment are routed on the segments
they were made of. -/
theorem routedSegments_plain (hsuffix : suffix ∈ suffixes) (hplain : Plain a) (hdot : a ≠ ".")
    (hdots : a ≠ "..") :
    routedSegments (joinPath (requestSegments a suffix)) = requestSegments a suffix := by
  have hdot' : a.toList ≠ ['.'] := fun h => hdot (String.toList_injective h)
  have hdots' : a.toList ≠ ['.', '.'] := fun h => hdots (String.toList_injective h)
  have hrest : ∀ suffix ∈ suffixes, (∀ segment ∈ suffix, PlainSegment segment) ∧
      ['.'] ∉ suffix ∧ ['.', '.'] ∉ suffix := by decide
  obtain ⟨hsegments, hnodot, hnodots⟩ := hrest suffix hsuffix
  have hplains : ∀ segment ∈ requestSegments a suffix, PlainSegment segment := by
    intro segment hmem
    rcases List.mem_cons.mp hmem with rfl | hmem
    · decide
    · rcases List.mem_cons.mp hmem with rfl | hmem
      · decide
      · rcases List.mem_cons.mp hmem with rfl | hmem
        · exact hplain
        · exact hsegments segment hmem
  have hne : requestSegments a suffix ≠ [] := List.cons_ne_nil _ _
  rw [routedSegments, plain_arrives_at hne hplains,
    splitOn_joinPath hne fun s hs => (hplains s hs).1]
  · simp [requestSegments, hdot'.symm, hnodot, accountsSegment]
  · simp [requestSegments, hdots'.symm, hnodots, accountsSegment]

/-- A request that is routed on its own id, with no less behind it than it was asked for with, is
one about a plain id. -/
theorem plain_of_routedSegments
    (h : routedSegments (joinPath (requestSegments a suffix)) = requestSegments a rest)
    (hweight : weight suffix ≤ weight rest) : Plain a := by
  have hmem : a.toList ∈ routedSegments (joinPath (requestSegments a suffix)) := by
    rw [h]
    simp [requestSegments]
  have hasks : a.toList ∈ requestSegments a suffix := by simp [requestSegments]
  refine plain_of_arrives ?_ hasks (slash_notMem_segment hmem)
  have hrouted := weight_splitOn (decodePath (normalizePath (cutTarget
    (joinPath (requestSegments a suffix)))))
  have hasked := length_intercalate (requestSegments a suffix)
  rw [← routedSegments, h] at hrouted
  simp only [requestSegments, weight_cons] at hrouted hasked
  rw [joinPath, requestSegments, hasked]
  simp only [joinPath] at hrouted
  omega

/-! ## URLs the client refuses -/

theorem length_le_quotedLength (kept : Char → Bool) (text : List Char) :
    text.length ≤ quotedLength kept text := by
  induction text with
  | nil => exact Nat.zero_le _
  | cons c text ih =>
    have hone : 1 ≤ if kept c then 1 else 3 * c.utf8Size := by
      have := c.utf8Size_pos
      split <;> omega
    simp only [quotedLength, List.map_cons, List.sum_cons, List.length_cons] at ih ⊢
    omega

theorem quotedLength_append (kept : Char → Bool) (text text' : List Char) :
    quotedLength kept (text ++ text') = quotedLength kept text + quotedLength kept text' := by
  simp [quotedLength]

theorem quotedLength_slash (text : List Char) :
    quotedLength keptInPath ('/' :: text) = 1 + quotedLength keptInPath text := by
  rw [quotedLength, List.map_cons, List.sum_cons]
  rfl

/-- A target that is all path. -/
theorem refusesUrl_iff_of_path {target : List Char} (hquery : '?' ∉ target)
    (hfragment : '#' ∉ target) : refusesUrl target = false ↔
      target.any isControl = false ∧ quotedLength keptInPath target ≤ maxUrlLength := by
  have hdrop : target.dropWhile (fun c => c ≠ '?' ∧ c ≠ '#') = [] := by
    rw [List.dropWhile_eq_nil_iff]
    intro c hc
    exact decide_eq_true ⟨fun h => hquery (h ▸ hc), fun h => hfragment (h ▸ hc)⟩
  have hnone : queryOf target = [] := by
    rw [queryOf, hdrop]
  have hlength := length_le_quotedLength keptInPath target
  rw [refusesUrl, hnone, cutTarget_eq_self.mpr ⟨hquery, hfragment⟩]
  simp only [Bool.or_eq_false_iff, decide_eq_false_iff_not, not_lt]
  constructor
  · rintro ⟨⟨⟨hcontrol, -⟩, hpath⟩, -⟩
    exact ⟨hcontrol, hpath⟩
  · rintro ⟨hcontrol, hpath⟩
    exact ⟨⟨⟨hcontrol, hlength.trans hpath⟩, hpath⟩, Nat.zero_le _⟩

/-- Control characters are those of the id. -/
theorem control_requestSegments (hsuffix : suffix ∈ suffixes) :
    (joinPath (requestSegments a suffix)).any isControl = a.toList.any isControl := by
  have hrest : ∀ suffix ∈ suffixes, suffix.any (fun segment => segment.any isControl) = false := by
    decide
  rw [any_joinPath rfl, requestSegments, List.any_cons, List.any_cons, List.any_cons,
    hrest suffix hsuffix, Bool.or_false]
  rfl

/-- What the path around the id takes of the length of the URL. -/
def around (suffix : List (List Char)) : ℕ :=
  quotedLength keptInPath (joinPath (requestSegments "" suffix))

theorem quotedLength_requestSegments (a : String) (suffix : List (List Char)) :
    quotedLength keptInPath (joinPath (requestSegments a suffix)) =
      quotedLength keptInPath a.toList + around suffix := by
  have hnil : quotedLength keptInPath [] = 0 := rfl
  unfold around requestSegments
  rw [joinPath_cons _ (List.cons_ne_nil _ _), joinPath_cons _ (List.cons_ne_nil _ _),
    joinPath_cons _ (List.cons_ne_nil _ _), joinPath_cons _ (List.cons_ne_nil _ _)]
  cases suffix with
  | nil =>
    simp only [joinPath_singleton, List.nil_append, quotedLength_append, quotedLength_slash,
      String.toList_empty, hnil]
    omega
  | cons segment suffix =>
    rw [joinPath_cons _ (List.cons_ne_nil _ _), joinPath_cons _ (List.cons_ne_nil _ _)]
    simp only [List.nil_append, quotedLength_append, quotedLength_slash, String.toList_empty]
    omega

/-- **Refused URLs.**  The client refuses the URL of a request about a plain id because of a control
character in the id, or because the id does not fit. -/
theorem refusesUrl_requestSegments (hsuffix : suffix ∈ suffixes) (hplain : Plain a) :
    refusesUrl (joinPath (requestSegments a suffix)) = false ↔ a.toList.any isControl = false ∧
      quotedLength keptInPath a.toList + around suffix ≤ maxUrlLength := by
  have hrest : ∀ suffix ∈ suffixes, ∀ segment ∈ suffix, '?' ∉ segment ∧ '#' ∉ segment := by decide
  have hnot : ∀ c, c ∉ a.toList → c ≠ '/' → c ∉ accountsSegment →
      (∀ segment ∈ suffix, c ∉ segment) → c ∉ joinPath (requestSegments a suffix) := by
    intro c hid hslash haccounts hsegments hmem
    obtain ⟨segment, hsegment, hin⟩ := (mem_joinPath hslash).mp hmem
    simp only [requestSegments, List.mem_cons] at hsegment
    rcases hsegment with rfl | rfl | rfl | hsegment
    · exact List.not_mem_nil hin
    · exact haccounts hin
    · exact hid hin
    · exact hsegments segment hsegment hin
  have hquery := hnot '?' hplain.2.1 (by decide) (by decide)
    fun segment hsegment => (hrest suffix hsuffix segment hsegment).1
  have hfragment := hnot '#' hplain.2.2.1 (by decide) (by decide)
    fun segment hsegment => (hrest suffix hsuffix segment hsegment).2
  rw [refusesUrl_iff_of_path hquery hfragment, control_requestSegments hsuffix,
    quotedLength_requestSegments]

/-! ## Routes -/

theorem matchBalance_eq_some {segments : List (List Char)} {accountId : List Char} :
    matchBalance segments = some accountId ↔ accountId ≠ [] ∧ ∃ last,
      matchesLast balanceSegment last = true ∧
        segments = [[], accountsSegment, accountId, last] := by
  constructor
  · intro h
    unfold matchBalance at h
    split at h
    · rename_i accounts accountId' last
      split at h
      · rename_i hcond
        obtain ⟨rfl, hne, hlast⟩ := hcond
        cases h
        exact ⟨hne, last, hlast, rfl⟩
      · cases h
    · cases h
  · rintro ⟨hne, last, hlast, rfl⟩
    exact if_pos ⟨rfl, hne, hlast⟩

theorem matchAccount_eq_some {segments : List (List Char)} {accountId : List Char} :
    matchAccount segments = some accountId ↔
      accountId ≠ [] ∧ segments = [[], accountsSegment, accountId] := by
  constructor
  · intro h
    unfold matchAccount at h
    split at h
    · split at h
      · rename_i hcond
        obtain ⟨rfl, hne⟩ := hcond
        cases h
        exact ⟨hne, rfl⟩
      · cases h
    · cases h
  · rintro ⟨hne, rfl⟩
    exact if_pos ⟨rfl, hne⟩

theorem readRoute_eq_balance {path : String} : readRoute path = .balance b ↔
    refusesUrl path.toList = false ∧
      matchBalance (routedSegments path.toList) = some b.toList := by
  unfold readRoute
  constructor
  · intro h
    split at h
    · cases h
    · rename_i hcontrol
      split at h
      · rename_i accountId hmatch
        cases h
        exact ⟨Bool.eq_false_iff.mpr hcontrol, by rw [hmatch, String.toList_ofList]⟩
      · split at h
        · cases h
        · cases h
  · rintro ⟨hcontrol, hmatch⟩
    rw [if_neg (Bool.eq_false_iff.mp hcontrol), hmatch]
    exact congrArg ReadRoute.balance String.ofList_toList

theorem readRoute_eq_account {path : String} : readRoute path = .account b ↔
    refusesUrl path.toList = false ∧
      matchAccount (routedSegments path.toList) = some b.toList := by
  unfold readRoute
  constructor
  · intro h
    split at h
    · cases h
    · rename_i hcontrol
      split at h
      · cases h
      · split at h
        · rename_i accountId hmatch
          cases h
          exact ⟨Bool.eq_false_iff.mpr hcontrol, by rw [hmatch, String.toList_ofList]⟩
        · cases h
  · rintro ⟨hcontrol, hmatch⟩
    have hnone : matchBalance (routedSegments path.toList) = none := by
      rw [(matchAccount_eq_some.mp hmatch).2]
      rfl
    rw [if_neg (Bool.eq_false_iff.mp hcontrol), hnone, hmatch]
    exact congrArg ReadRoute.account String.ofList_toList

theorem readRoute_balancePath : readRoute (balancePath a) = .balance b ↔
    refusesUrl (joinPath (requestSegments a [balanceSegment])) = false ∧
      matchBalance (routedSegments (joinPath (requestSegments a [balanceSegment]))) =
        some b.toList := by
  rw [readRoute_eq_balance, balancePath_toList]

theorem readRoute_accountPath : readRoute (accountPath a) = .account b ↔
    refusesUrl (joinPath (requestSegments a [])) = false ∧
      matchAccount (routedSegments (joinPath (requestSegments a []))) = some b.toList := by
  rw [readRoute_eq_account, accountPath_toList]

theorem accountRoute_iff : accountRoute a = .account b ↔
    refusesUrl (joinPath (requestSegments a [transactionsSegment])) = false ∧
      matchTransactions (routedSegments (joinPath (requestSegments a [transactionsSegment]))) =
        some b.toList := by
  rw [← transactionsPath_eq]
  constructor
  · intro h
    refine ⟨?_, accountRoute_eq_account h⟩
    by_contra hrefused
    rw [accountRoute] at h
    rw [if_pos (Bool.eq_true_of_not_eq_false hrefused)] at h
    cases h
  · rintro ⟨hrefused, hmatch⟩
    rw [accountRoute]
    rw [if_neg (Bool.eq_false_iff.mp hrefused), routePath]
    rw [routedSegments] at hmatch
    rw [hmatch]
    exact congrArg Routed.account String.ofList_toList

/-! ## Which requests go to their account -/

/-- A dot segment is dropped, and what is behind it moves up. -/
theorem dot_moves_up (hsuffix : suffix ∈ suffixes)
    (h : routedSegments (joinPath (requestSegments a suffix)) = requestSegments b rest)
    (hlength : rest.length = suffix.length) : a ≠ "." ∧ a ≠ ".." := by
  have hshort : ∀ suffix ∈ suffixes, ∀ a ∈ [".", ".."],
      (routedSegments (joinPath (requestSegments a suffix))).length ≠ suffix.length + 3 := by
    decide +kernel
  have hsame : (routedSegments (joinPath (requestSegments a suffix))).length =
      suffix.length + 3 := by
    rw [h, ← hlength]
    rfl
  constructor
  · rintro rfl
    exact hshort suffix hsuffix "." (by decide) hsame
  · rintro rfl
    exact hshort suffix hsuffix ".." (by decide) hsame

/-- **The account of a request.**  The id that is bound is the one that was asked for exactly for
plain ids. -/
theorem bound_iff (hsuffix : suffix ∈ suffixes)
    (h : routedSegments (joinPath (requestSegments a suffix)) = requestSegments b rest)
    (hlength : rest.length = suffix.length) (hweight : weight suffix ≤ weight rest) :
    b = a ↔ Plain a := by
  constructor
  · rintro rfl
    exact plain_of_routedSegments h hweight
  · intro hplain
    obtain ⟨hdot, hdots⟩ := dot_moves_up hsuffix h hlength
    rw [routedSegments_plain hsuffix hplain hdot hdots] at h
    simp only [requestSegments, List.cons.injEq] at h
    exact (String.toList_injective h.2.2.1).symm

theorem balance_segments
    (h : matchBalance (routedSegments (joinPath (requestSegments a [balanceSegment]))) =
      some b.toList) : ∃ last, weight [balanceSegment] ≤ weight [last] ∧
      routedSegments (joinPath (requestSegments a [balanceSegment])) =
        requestSegments b [last] := by
  obtain ⟨-, last, hlast, hsegments⟩ := matchBalance_eq_some.mp h
  refine ⟨last, ?_, hsegments⟩
  have hlength := matchesLast_length hlast
  simpa using hlength

theorem transactions_segments
    (h : matchTransactions (routedSegments (joinPath (requestSegments a [transactionsSegment]))) =
      some b.toList) : ∃ last, weight [transactionsSegment] ≤ weight [last] ∧
      routedSegments (joinPath (requestSegments a [transactionsSegment])) =
        requestSegments b [last] := by
  obtain ⟨last, hsegments, -, hlast⟩ := matchTransactions_eq_some h
  refine ⟨last, ?_, hsegments⟩
  have hlength := matchesLast_length hlast
  simpa using hlength

section
variable {room : ℕ}

theorem Routable.mono (h : Routable room a) {room' : ℕ} (hroom : room ≤ room') :
    Routable room' a :=
  ⟨h.1, h.2.1, h.2.2.1, h.2.2.2.1, h.2.2.2.2.1, h.2.2.2.2.2.trans hroom⟩

/-- What is asked for a routable account is what the router sees. -/
theorem Routable.segments (h : Routable room a) (hsuffix : suffix ∈ suffixes) :
    routedSegments (joinPath (requestSegments a suffix)) = requestSegments a suffix :=
  routedSegments_plain hsuffix h.1 h.2.2.1 h.2.2.2.1

theorem Routable.ne_nil (h : Routable room a) : a.toList ≠ [] :=
  fun hnil => h.2.1 (String.toList_injective hnil)

/-- The client accepts the URL of a request about a routable account. -/
theorem Routable.accepted (h : Routable room a) (hsuffix : suffix ∈ suffixes)
    (hroom : room + around suffix = maxUrlLength) :
    refusesUrl (joinPath (requestSegments a suffix)) = false := by
  obtain ⟨hplain, -, -, -, hcontrol, hlength⟩ := h
  exact (refusesUrl_requestSegments hsuffix hplain).mpr ⟨hcontrol, by omega⟩

/-- An id that is bound by its own request is routable. -/
theorem routable_of_bound (hsuffix : suffix ∈ suffixes)
    (hroom : room + around suffix = maxUrlLength)
    (h : routedSegments (joinPath (requestSegments a suffix)) = requestSegments a rest)
    (hlength : rest.length = suffix.length) (hweight : weight suffix ≤ weight rest)
    (hne : a.toList ≠ [])
    (haccepted : refusesUrl (joinPath (requestSegments a suffix)) = false) : Routable room a := by
  obtain ⟨hdot, hdots⟩ := dot_moves_up hsuffix h hlength
  have hplain := (bound_iff hsuffix h hlength hweight).mp rfl
  obtain ⟨hcontrol, hfits⟩ := (refusesUrl_requestSegments hsuffix hplain).mp haccepted
  refine ⟨hplain, ?_, hdot, hdots, hcontrol, by omega⟩
  rintro rfl
  exact hne rfl

end

/-- A transaction goes to the account it names exactly for routable ids. -/
theorem accountRoute_self_iff : accountRoute a = .account a ↔ Routable transactionsRoom a := by
  have hroom : transactionsRoom + around [transactionsSegment] = maxUrlLength := by decide +kernel
  constructor
  · intro h
    obtain ⟨haccepted, hmatch⟩ := accountRoute_iff.mp h
    obtain ⟨last, hweight, hsegments⟩ := transactions_segments hmatch
    obtain ⟨-, -, hne, -⟩ := matchTransactions_eq_some hmatch
    exact routable_of_bound (by decide) hroom hsegments rfl hweight hne haccepted
  · intro h
    refine accountRoute_iff.mpr ⟨h.accepted (by decide) hroom, ?_⟩
    rw [h.segments (by decide)]
    exact if_pos ⟨rfl, h.ne_nil, by decide⟩

/-- So does the read of a balance. -/
theorem readRoute_balance_self_iff :
    readRoute (balancePath a) = .balance a ↔ Routable balanceRoom a := by
  have hroom : balanceRoom + around [balanceSegment] = maxUrlLength := by decide +kernel
  constructor
  · intro h
    obtain ⟨haccepted, hmatch⟩ := readRoute_balancePath.mp h
    obtain ⟨last, hweight, hsegments⟩ := balance_segments hmatch
    exact routable_of_bound (by decide) hroom hsegments rfl hweight
      (matchBalance_eq_some.mp hmatch).1 haccepted
  · intro h
    refine readRoute_balancePath.mpr ⟨h.accepted (by decide) hroom, ?_⟩
    rw [h.segments (by decide)]
    exact if_pos ⟨rfl, h.ne_nil, by decide⟩

/-- So does the read of an account. -/
theorem readRoute_account_self_iff :
    readRoute (accountPath a) = .account a ↔ Routable accountRoom a := by
  have hroom : accountRoom + around [] = maxUrlLength := by decide +kernel
  constructor
  · intro h
    obtain ⟨haccepted, hmatch⟩ := readRoute_accountPath.mp h
    obtain ⟨hne, hsegments⟩ := matchAccount_eq_some.mp hmatch
    have hrest : routedSegments (joinPath (requestSegments a [])) = requestSegments a [] :=
      hsegments
    exact routable_of_bound (by decide) hroom hrest rfl le_rfl hne haccepted
  · intro h
    refine readRoute_accountPath.mpr ⟨h.accepted (by decide) hroom, ?_⟩
    rw [h.segments (by decide)]
    exact if_pos ⟨rfl, h.ne_nil⟩

/-- **One account for all requests.**  A transaction, a balance and an account with the same id go
to the account with that id for the same ids, as far as the client allows URLs of their lengths; and
a balance or an account that is read for an id is that of the id exactly for plain ids. -/
theorem reads_routed (a : String) :
    (accountRoute a = .account a ↔ Routable transactionsRoom a) ∧
      (readRoute (balancePath a) = .balance a ↔ Routable balanceRoom a) ∧
      (readRoute (accountPath a) = .account a ↔ Routable accountRoom a) ∧
      (∀ b, readRoute (balancePath a) = .balance b → (b = a ↔ Plain a)) ∧
      ∀ b, readRoute (accountPath a) = .account b → (b = a ↔ Plain a) := by
  refine ⟨accountRoute_self_iff, readRoute_balance_self_iff, readRoute_account_self_iff,
    fun b h => ?_, fun b h => ?_⟩
  · obtain ⟨last, hweight, hsegments⟩ := balance_segments (readRoute_balancePath.mp h).2
    exact bound_iff (by decide) hsegments rfl hweight
  · have hsegments : routedSegments (joinPath (requestSegments a [])) = requestSegments b [] :=
      (matchAccount_eq_some.mp (readRoute_accountPath.mp h).2).2
    exact bound_iff (by decide) hsegments rfl le_rfl

/-- Reading the balance of an account `x/balance?` shows that of `x`. -/
example : readRoute (balancePath "x/balance?") = .balance "x" := by decide +kernel

end

end EventLedger
