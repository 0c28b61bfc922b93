import EventLedger.HandlerOperations

/-!
# The audit trail and the stores

In both services the row of an accepted request is inserted in one step and its
audit entry appended in another.  Handler by handler, an entry is appended only
after its row, and both have been when the handler returns (`Matches`); over all
threads this is what the log and the table have in common in every state, and
when no request is in progress they agree entry by entry (`audit_reconciles`).
-/
namespace EventLedger

open Program Prog Service LabelledRun KeyedTable

/-! ## The log -/

/-- What an entry says it is about: the account, the event and the detail, as text. -/
abbrev AuditKey : Type := Option String × Option String × Option String

/-- What a row of the log is about. -/
def AuditRow.key (row : AuditRow) : AuditKey := (row.accountId, row.eventId, row.detailJson)

/-- The text a detail is stored as. -/
def detailText (detail : List (String × Json)) : Option String :=
  if detail.isEmpty then none else some (Json.dumps (.obj detail))

/-- What the entries with an outcome are about, in order. -/
def keysOf (outcome : String) (log : List AuditRow) : List AuditKey :=
  (log.filter (·.outcome = outcome)).map AuditRow.key

variable {outcome : String} {log : List AuditRow} {entry : AuditEntry}

theorem keysOf_elim (entry : Option AuditEntry) :
    keysOf outcome (entry.elim log (appendAudit log)) = keysOf outcome log ++
      entry.elim [] fun e =>
        if e.outcome = outcome then [(e.accountId, e.eventId, detailText e.detail)] else [] := by
  cases entry with
  | none => exact (List.append_nil _).symm
  | some e => exact selected_concat _

/-- The ids of a log count up from one. -/
def Numbered (log : List AuditRow) : Prop := log.map AuditRow.id = List.range' 1 log.length

theorem Numbered.appendAudit (h : Numbered log) (entry : AuditEntry) :
    Numbered (appendAudit log entry) := by
  unfold Numbered at h ⊢
  rw [EventLedger.appendAudit, List.map_append, h, List.length_append, List.length_singleton,
    List.range'_concat]
  simp [Nat.add_comm]

theorem Numbered.increasing (h : Numbered log) : log.Pairwise fun a b => a.id < b.id := by
  have hrange : (log.map AuditRow.id).Pairwise (· < ·) := by
    rw [show log.map AuditRow.id = _ from h]
    exact List.pairwise_lt_range'
  exact List.pairwise_map.mp hrange

/-! ## What the log and a table owe each other -/

/-- The entry about a record. -/
def recordKey (accountId eventId : String) (type : TxType) (amount currency : String) : AuditKey :=
  (some accountId, some eventId,
    detailText [("type", .str type.value), ("amount", .str amount), ("currency", .str currency)])

/-- What the entry about a transaction says. -/
def StoredTransaction.auditKey (tx : StoredTransaction) : AuditKey :=
  recordKey tx.accountId tx.eventId tx.type tx.amount tx.currency

/-- What the entry about an event says. -/
def StoredEvent.auditKey (event : StoredEvent) : AuditKey :=
  recordKey event.accountId event.eventId event.type event.amount event.currency

/-- The log reconciles with the rows of a table. -/
structure Reconciles {ρ : Type} (outcome : String) (auditKey : ρ → AuditKey) (rows : List ρ)
    (log : List AuditRow) (quiet : Prop) : Prop where
  /-- Every entry with the outcome has its row. -/
  of_entry : ∀ entry ∈ log, entry.outcome = outcome → ∃ row ∈ rows, entry.key = auditKey row
  /-- When no request is in progress, every row has exactly one such entry. -/
  of_row : quiet → ∀ row ∈ rows,
    log.countP (fun entry => entry.outcome = outcome ∧ entry.key = auditKey row) = 1
  /-- Ids increase in append order. -/
  increasing : log.Pairwise fun a b => a.id < b.id

theorem reconciles_of_keys {ρ : Type} {auditKey : ρ → AuditKey} {rows : List ρ} {quiet : Prop}
    (hsubset : keysOf outcome log ⊆ rows.map auditKey)
    (hperm : quiet → (keysOf outcome log).Perm (rows.map auditKey))
    (hnodup : (rows.map auditKey).Nodup) (hnumbered : Numbered log) :
    Reconciles outcome auditKey rows log quiet where
  of_entry entry hentry houtcome := by
    have hkey : entry.key ∈ keysOf outcome log :=
      List.mem_map_of_mem (List.mem_filter.mpr ⟨hentry, by simpa using houtcome⟩)
    obtain ⟨row, hrow, heq⟩ := List.mem_map.mp (hsubset hkey)
    exact ⟨row, hrow, heq.symm⟩
  of_row hquiet row hrow := by
    have hcount : (keysOf outcome log).count (auditKey row) = 1 := by
      rw [(hperm hquiet).count_eq]
      exact List.count_eq_one_of_mem hnodup (List.mem_map_of_mem hrow)
    rw [keysOf, List.count, List.countP_map, List.countP_filter] at hcount
    rw [← hcount]
    refine List.countP_congr fun entry _ => ?_
    simp [and_comm]
  increasing := hnumbered.increasing

/-! ## Logs that are only appended to -/

section
variable {Req Op : Type} {Ret : Op → Type} {Ans σ ε : Type} {V : Service Req Op Ret Ans σ ε}
  {logOf : σ → List AuditRow} {s t : State Req Op Ret Ans σ} {ls : List (Service.Label Req ε)}

/-- No operation of the service changes the log but by appending one entry. -/
def AppendsOnly (V : Service Req Op Ret Ans σ ε) (logOf : σ → List AuditRow) : Prop :=
  ∀ env store o store' r, V.exec env store o = some (store', r) →
    logOf store' = logOf store ∨ ∃ entry, logOf store' = appendAudit (logOf store) entry

theorem AppendsOnly.of_log {entry : ε → Op → Option AuditEntry}
    (h : ∀ env store o store' r, V.exec env store o = some (store', r) →
      logOf store' = (entry env o).elim (logOf store) (appendAudit (logOf store))) :
    AppendsOnly V logOf := by
  intro env store o store' r hexec
  have hlog := h env store o store' r hexec
  cases hentry : entry env o with
  | none => exact Or.inl (by rwa [hentry] at hlog)
  | some e => exact Or.inr ⟨e, by rwa [hentry] at hlog⟩

theorem AppendsOnly.step {a : Service.Label Req ε} (h : AppendsOnly V logOf)
    (hstep : V.step s a = some t) :
    logOf t.store = logOf s.store ∨ ∃ entry, logOf t.store = appendAudit (logOf s.store) entry := by
  cases step_cases hstep with
  | arrive req => exact Or.inl rfl
  | act i env req es o k store r hthread hexec => exact h env s.store o store r hexec

theorem AppendsOnly.numbered (h : AppendsOnly V logOf) (hrun : Run V.step s ls t)
    (hs : Numbered (logOf s.store)) : Numbered (logOf t.store) := by
  refine Run.preserves (I := fun s => Numbered (logOf s.store)) ?_ hrun hs
  intro s a t hs hstep
  rcases h.step hstep with hlog | ⟨entry, hlog⟩
  · rwa [hlog]
  · rw [hlog]
    exact hs.appendAudit entry

/-- Entries are never changed or removed. -/
theorem AppendsOnly.isPrefix (h : AppendsOnly V logOf) (hrun : Run V.step s ls t) :
    logOf s.store <+: logOf t.store := by
  refine Run.relates (I := fun _ => True) (R := fun s t => logOf s.store <+: logOf t.store)
    (fun _ => List.prefix_refl _) (fun _ _ _ => List.IsPrefix.trans) (fun _ _ _ _ _ => trivial)
    ?_ hrun trivial
  intro s a t _ hstep
  rcases h.step hstep with hlog | ⟨entry, hlog⟩
  · rw [hlog]
  · rw [hlog]
    exact List.prefix_append _ _

/-- **A service reconciles** if its rows and the entries with the outcome are what the events of its
threads add, and these match in every handler. -/
theorem service_reconciles {ρ : Type} {outcome : String} {auditKey : ρ → AuditKey}
    {rowsOf : σ → List ρ} {f g : Event Op Ret → List AuditKey} {store : σ}
    (hrows : ∀ env s o s' r, V.exec env s o = some (s', r) →
      (rowsOf s').map auditKey = (rowsOf s).map auditKey ++ f ⟨o, r⟩)
    (hentries : ∀ env s o s' r, V.exec env s o = some (s', r) →
      keysOf outcome (logOf s') = keysOf outcome (logOf s) ++ g ⟨o, r⟩)
    (happends : AppendsOnly V logOf) (hmatches : ∀ req, (V.handle req).Matches f g)
    (hnodup : ∀ s, ((rowsOf s).map auditKey).Nodup) (hnoRows : rowsOf store = [])
    (hnoLog : logOf store = []) (h : Run V.step (.initial store) ls t) :
    Reconciles outcome auditKey (rowsOf t.store) (logOf t.store) t.Quiet := by
  have hrows := accounted hrows h
  have hentries := accounted hentries h
  rw [hnoRows, List.map_nil, List.nil_append] at hrows
  rw [hnoLog, show keysOf outcome [] = [] from rfl, List.nil_append] at hentries
  obtain ⟨hsubset, hequal⟩ := reconciled hmatches h
  have hnumbered : Numbered (logOf t.store) := by
    refine happends.numbered h ?_
    show Numbered (logOf store)
    rw [hnoLog]
    rfl
  refine reconciles_of_keys ?_ ?_ (hnodup t.store) hnumbered
  · intro key hkey
    exact hrows.mem_iff.mpr (hsubset (hentries.mem_iff.mp hkey))
  · intro hquiet
    refine hentries.trans (List.Perm.trans ?_ hrows.symm)
    rw [hequal hquiet]

end

/-! ## The Account Service -/

/-- What an event adds to the `transactions` table. -/
def appliedRows : Event AccountApiOp AccountApiOp.Ret → List AuditKey
  | ⟨.core (.insertTransaction tx), true⟩ => [tx.auditKey]
  | _ => []

/-- What an event adds to the entries with outcome APPLIED. -/
def appliedEntries : Event AccountApiOp AccountApiOp.Ret → List AuditKey
  | ⟨.core (.audit outcome accountId eventId detail), _⟩ =>
    if outcome = "APPLIED" then [(some accountId, some eventId, detailText detail)] else []
  | _ => []

theorem account_reads_matches {α : Type} {p : AccountApiProg α} (h : p.All AccountApiOp.Reads) :
    p.Matches appliedRows appliedEntries := by
  refine All.matches (h.mono fun op hop r => ?_)
  cases op with
  | core op =>
    cases op with
    | insertTransaction tx => exact absurd hop id
    | audit outcome accountId eventId detail => exact absurd hop id
    | _ => exact ⟨rfl, rfl⟩
  | _ => exact ⟨rfl, rfl⟩

theorem appliedEntries_audit (outcome accountId eventId : String) (detail : List (String × Json))
    (r : Unit) :
    (appliedEntries ∘ inAccountApi) ⟨.audit outcome accountId eventId detail, r⟩ =
      if outcome = "APPLIED" then [(some accountId, some eventId, detailText detail)] else [] :=
  rfl

theorem appliedEntries_duplicate (accountId eventId : String) (r : Unit) :
    (appliedEntries ∘ inAccountApi) ⟨.audit "DUPLICATE" accountId eventId [], r⟩ = [] := by
  rw [appliedEntries_audit, if_neg (by decide)]

/-- **`apply_transaction`.**  By the exits of the handler. -/
theorem applyTransaction_matches (accountId : String) (body : TransactionRequest) :
    (applyTransaction accountId body).Matches (appliedRows ∘ inAccountApi)
      (appliedEntries ∘ inAccountApi) := by
  simp only [applyTransaction, AccountProg.getTransaction, AccountProg.audit, AccountProg.now,
    AccountProg.insertTransaction, AccountProg.traceId, perform_bind, pure_eq]
  have hfail : (Prog.act AccountOp.traceId fun t => Prog.done (AccountAnswer.internalError t) :
      AccountProg AccountAnswer).Matches (appliedRows ∘ inAccountApi)
        (appliedEntries ∘ inAccountApi) :=
    matches_act (fun _ => rfl) (fun _ => rfl) fun _ => matches_done
  refine matches_act (fun _ => rfl) (fun _ => rfl) fun existing => ?_
  cases existing with
  | some existing =>
    exact matches_act (fun _ => rfl) (appliedEntries_duplicate _ _) fun _ => matches_done
  | none =>
    refine matches_act (fun _ => rfl) (fun _ => rfl) fun now => ?_
    cases hstored : body.stored accountId now with
    | none => exact hfail
    | some tx =>
      obtain ⟨amount, -, rfl⟩ := Option.map_eq_some_iff.mp hstored
      refine keeps_act.mpr ⟨List.Subset.refl [], fun created => ?_⟩
      cases created with
      | true =>
        -- the row first, its entry next
        refine keeps_act.mpr ⟨List.nil_subset _, fun _ => ?_⟩
        refine matches_pair rfl rfl ?_ matches_done
        rw [appliedEntries_audit, if_pos rfl]
        rfl
      | false =>
        refine Matches.cons (matches_act (fun _ => rfl) (fun _ => rfl) fun winner => ?_) rfl rfl
        refine matches_act (fun _ => rfl) (appliedEntries_duplicate _ _) fun _ => ?_
        cases winner with
        | some winner => exact matches_done
        | none => exact hfail

theorem handleAccount_matches (req : AccountRequest) :
    (handleAccount req).Matches appliedRows appliedEntries := by
  by_cases hpost : ∃ accountId payload, req = .post accountId payload
  · obtain ⟨accountId, payload, rfl⟩ := hpost
    refine Matches.bind (AccountApiProg.inCore_matches ?_) fun _ => matches_done
    unfold serve
    split
    · split
      · exact applyTransaction_matches _ _
      · exact matches_done
    · exact matches_done
    · exact matches_act (fun _ => rfl) (fun _ => rfl) fun _ => matches_done
  · refine account_reads_matches (handleAccount_all ?_)
    rintro accountId payload rfl
    exact hpost ⟨accountId, payload, rfl⟩

theorem accountService_appendsOnly : AppendsOnly accountService AccountDB.auditLog :=
  .of_log fun _ _ _ _ _ h => accountApiExec_log h

theorem account_rows_step (env : AccountEnv) (db : AccountDB) (o : AccountApiOp) (db' : AccountDB)
    (r : o.Ret) (h : accountService.exec env db o = some (db', r)) :
    db'.transactions.rows.map StoredTransaction.auditKey =
      db.transactions.rows.map StoredTransaction.auditKey ++ appliedRows ⟨o, r⟩ := by
  cases o with
  | core op =>
    cases op with
    | insertTransaction tx =>
      rcases accountApiExec_insert h with ⟨rfl, hrows, -⟩ | ⟨rfl, rfl⟩
      · rw [hrows, List.map_append]
        rfl
      · exact (List.append_nil _).symm
    | _ =>
      cases h
      exact (List.append_nil _).symm
  | _ =>
    cases h
    exact (List.append_nil _).symm

theorem account_entries_step (env : AccountEnv) (db : AccountDB) (o : AccountApiOp)
    (db' : AccountDB) (r : o.Ret) (h : accountService.exec env db o = some (db', r)) :
    keysOf "APPLIED" db'.auditLog = keysOf "APPLIED" db.auditLog ++ appliedEntries ⟨o, r⟩ := by
  rw [accountApiExec_log h, keysOf_elim]
  cases o with
  | core op => cases op <;> rfl
  | _ => rfl

/-- **The Account Service.** -/
theorem account_reconciles {ls : List AccountLabel} {t : AccountState}
    (h : Run accountService.step (.initial AccountDB.new) ls t) :
    Reconciles "APPLIED" StoredTransaction.auditKey t.store.transactions.rows t.store.auditLog
      t.Quiet :=
  service_reconciles account_rows_step account_entries_step accountService_appendsOnly
    handleAccount_matches
    (fun db => Table.nodup_view StoredTransaction.auditKey
      (fun key : AuditKey => key.2.1.getD "") (fun _ => rfl) db.transactions)
    rfl rfl h

/-! ## The Gateway -/

/-- What an event adds to the `events` table. -/
def acceptedRows : Event ApiOp ApiOp.Ret → List AuditKey
  | ⟨.core (.insertEvent event), true⟩ => [event.auditKey]
  | _ => []

/-- What an event adds to the entries with outcome ACCEPTED. -/
def acceptedEntries : Event ApiOp ApiOp.Ret → List AuditKey
  | ⟨.core (.audit outcome accountId eventId detail), _⟩ =>
    if outcome = "ACCEPTED" then [(some accountId, some eventId, detailText detail)] else []
  | ⟨.record _ outcome detail, _⟩ =>
    if outcome = "ACCEPTED" then [(none, none, detailText detail)] else []
  | _ => []

theorem gateway_reads_matches {α : Type} {p : ApiProg α} (h : p.All ApiOp.Reads) :
    p.Matches acceptedRows acceptedEntries := by
  refine All.matches (h.mono fun op hop r => ?_)
  cases op with
  | core op =>
    cases op with
    | insertEvent event => exact absurd hop id
    | audit outcome accountId eventId detail => exact absurd hop id
    | _ => exact ⟨rfl, rfl⟩
  | record action outcome detail => exact absurd hop id
  | _ => exact ⟨rfl, rfl⟩

theorem call_matches {α : Type} {p : GatewayProg α} (h : p.All GatewayOp.OfCall) :
    p.Matches (acceptedRows ∘ inApi) (acceptedEntries ∘ inApi) := by
  refine All.matches (h.mono fun op hop r => ?_)
  cases op with
  | insertEvent event => exact absurd hop id
  | audit outcome accountId eventId detail => exact absurd hop id
  | _ => exact ⟨rfl, rfl⟩

theorem acceptedEntries_audit (outcome accountId eventId : String) (detail : List (String × Json))
    (r : Unit) :
    (acceptedEntries ∘ inApi) ⟨.audit outcome accountId eventId detail, r⟩ =
      if outcome = "ACCEPTED" then [(some accountId, some eventId, detailText detail)] else [] :=
  rfl

/-- An entry with another outcome, and whatever follows it. -/
theorem audit_matches {α : Type} {outcome accountId eventId : String}
    {detail : List (String × Json)} {k : Unit → GatewayProg α} (h : outcome ≠ "ACCEPTED")
    (hk : ∀ r, (k r).Matches (acceptedRows ∘ inApi) (acceptedEntries ∘ inApi)) :
    (Prog.act (GatewayOp.audit outcome accountId eventId detail) k : GatewayProg α).Matches
      (acceptedRows ∘ inApi) (acceptedEntries ∘ inApi) := by
  refine matches_act (fun _ => rfl) (fun r => ?_) hk
  rw [acceptedEntries_audit, if_neg h]

theorem unhandled_matches : unhandled.Matches (acceptedRows ∘ inApi) (acceptedEntries ∘ inApi) :=
  matches_act (fun _ => rfl) (fun _ => rfl) fun _ => matches_done

theorem respond_matches (loads : String → Option Json) (status : ℕ) (event : StoredEvent)
    (duplicate : Bool) : (respond loads status event duplicate).Matches (acceptedRows ∘ inApi)
      (acceptedEntries ∘ inApi) := by
  unfold respond
  cases event.toResponse loads duplicate with
  | some response => exact matches_done
  | none => exact unhandled_matches

theorem persistEvent_matches (loads : String → Option Json) (body : EventRequest)
    (amount : String) : (persistEvent loads body amount).Matches (acceptedRows ∘ inApi)
      (acceptedEntries ∘ inApi) := by
  refine matches_act (fun _ => rfl) (fun _ => rfl) fun now => ?_
  refine keeps_act.mpr ⟨List.Subset.refl [], fun created => ?_⟩
  cases created with
  | true =>
    -- the row first, its entry next
    refine keeps_act.mpr ⟨List.nil_subset _, fun _ => ?_⟩
    refine matches_pair rfl rfl ?_ (respond_matches loads 201 _ false)
    rw [acceptedEntries_audit, if_pos rfl]
    rfl
  | false =>
    refine Matches.cons (matches_act (fun _ => rfl) (fun _ => rfl) fun existing => ?_) rfl rfl
    cases existing with
    | some existing => exact respond_matches loads 200 existing true
    | none => exact unhandled_matches

/-- **`submit_event`.**  By the exits of the handler. -/
theorem submitEvent_matches (loads : String → Option Json) (maxRetries : ℕ) (body : EventRequest) :
    (submitEvent loads maxRetries body).Matches (acceptedRows ∘ inApi)
      (acceptedEntries ∘ inApi) := by
  simp only [submitEvent, GatewayProg.getEvent, GatewayProg.audit, GatewayProg.circuitState,
    perform_bind, pure_eq]
  refine matches_act (fun _ => rfl) (fun _ => rfl) fun existing => ?_
  cases existing with
  | some existing =>
    exact audit_matches (by decide) fun _ => respond_matches loads 200 existing true
  | none =>
    cases amountStr body.amount with
    | none => exact unhandled_matches
    | some amount =>
      refine Matches.bind (call_matches (clientApplyTransaction_all _ _)) fun result => ?_
      cases result with
      | unavailable =>
        exact matches_act (fun _ => rfl) (fun _ => rfl) fun circuit =>
          audit_matches (by decide) fun _ => matches_done
      | clientError resp =>
        refine audit_matches (by decide) fun _ => ?_
        split
        · exact matches_done
        · exact unhandled_matches
      | raised => exact unhandled_matches
      | response resp => exact persistEvent_matches loads body amount

theorem handleApi_matches (cfg : GatewaySettings) (req : ApiRequest) :
    (handleApi cfg req).Matches acceptedRows acceptedEntries := by
  have hrecord : ∀ (action outcome : String) (detail : List (String × Json))
      (rest : ApiProg HttpResponse), outcome ≠ "ACCEPTED" → rest.All ApiOp.Reads →
      (Prog.act (ApiOp.record action outcome detail) fun _ => rest : ApiProg HttpResponse).Matches
        acceptedRows acceptedEntries := by
    intro action outcome detail rest hne hrest
    exact matches_act (fun _ => rfl) (fun _ => if_neg hne) fun _ => gateway_reads_matches hrest
  by_cases hwrites : req.Writes
  · cases req with
    | submit body =>
      have hsubmit := submitEvent_matches cfg.loads cfg.maxRetries body
      exact Matches.bind (ApiProg.inCore_matches hsubmit) fun answer =>
        gateway_reads_matches (render_all answer.status (answer.body cfg.serializes))
    | invalid endpoint errors => exact hrecord _ _ _ _ (by decide) (renderJson_all _ _)
    | setFault mode =>
      exact matches_act (fun _ => rfl) (fun _ => rfl) fun _ =>
        hrecord _ _ _ _ (by decide) getFaultHandler_all
    | _ => exact absurd hwrites id
  · exact gateway_reads_matches (handleApi_all cfg hwrites)

theorem gatewayService_appendsOnly (cfg : GatewaySettings) :
    AppendsOnly (gatewayService cfg) GatewayDB.auditLog :=
  .of_log fun _ _ _ _ _ h => apiExec_log h

theorem gateway_rows_step (env : GatewayEnv) (db : GatewayDB) (o : ApiOp) (db' : GatewayDB)
    (r : o.Ret) (h : apiExec env db o = some (db', r)) :
    db'.events.rows.map StoredEvent.auditKey =
      db.events.rows.map StoredEvent.auditKey ++ acceptedRows ⟨o, r⟩ := by
  cases o with
  | core op =>
    cases op with
    | insertEvent event =>
      rcases apiExec_insert h with ⟨rfl, hrows, -⟩ | ⟨rfl, rfl, -⟩
      · rw [hrows, List.map_append]
        rfl
      · exact (List.append_nil _).symm
    | _ =>
      cases h
      exact (List.append_nil _).symm
  | _ =>
    cases h
    exact (List.append_nil _).symm

theorem gateway_entries_step (env : GatewayEnv) (db : GatewayDB) (o : ApiOp) (db' : GatewayDB)
    (r : o.Ret) (h : apiExec env db o = some (db', r)) :
    keysOf "ACCEPTED" db'.auditLog = keysOf "ACCEPTED" db.auditLog ++ acceptedEntries ⟨o, r⟩ := by
  rw [apiExec_log h, keysOf_elim]
  cases o with
  | core op => cases op <;> rfl
  | _ => rfl

/-- **The Gateway.** -/
theorem gateway_reconciles {cfg : GatewaySettings} {ls : List GatewayLabel}
    {t : GatewayState} (h : Run (gatewayService cfg).step (.initial GatewayDB.new) ls t) :
    Reconciles "ACCEPTED" StoredEvent.auditKey t.store.events.rows t.store.auditLog t.Quiet :=
  service_reconciles gateway_rows_step gateway_entries_step (gatewayService_appendsOnly cfg)
    (handleApi_matches cfg)
    (fun db => Table.nodup_view StoredEvent.auditKey (fun key : AuditKey => key.2.1.getD "")
      (fun _ => rfl) db.events)
    rfl rfl h

/-- **The audit trail.**  In every run of either service, in every state: each entry that says a
transaction was applied, or an event accepted, has its row, with the same account, event, type,
amount and currency; when no request is in progress, each row has exactly one such entry; ids
increase in append order; and whatever happens later, the log is only added to. -/
theorem audit_reconciles :
    (∀ (ls : List AccountLabel) (t : AccountState),
      Run accountService.step (.initial AccountDB.new) ls t →
      Reconciles "APPLIED" StoredTransaction.auditKey t.store.transactions.rows t.store.auditLog
        t.Quiet ∧
      ∀ ls' u, Run accountService.step t ls' u → t.store.auditLog <+: u.store.auditLog) ∧
    ∀ (cfg : GatewaySettings) (ls : List GatewayLabel) (t : GatewayState),
      Run (gatewayService cfg).step (.initial GatewayDB.new) ls t →
      Reconciles "ACCEPTED" StoredEvent.auditKey t.store.events.rows t.store.auditLog t.Quiet ∧
      ∀ ls' u, Run (gatewayService cfg).step t ls' u → t.store.auditLog <+: u.store.auditLog := by
  constructor
  · intro ls t hrun
    exact ⟨account_reconciles hrun, fun ls' u h => accountService_appendsOnly.isPrefix h⟩
  · intro cfg ls t hrun
    exact ⟨gateway_reconciles hrun, fun ls' u h => (gatewayService_appendsOnly cfg).isPrefix h⟩

/-- A transaction is applied. -/
def applyingRun : List AccountLabel :=
  .arrive (.post "acct-123" (sampleEvent.payload "150")) :: List.replicate 4 (.act 0 sampleEnv)

/-- An event is accepted. -/
def acceptingRun : List GatewayLabel := .arrive (.submit sampleEvent) :: acts 0 10

/-- Either has its row, and the one entry that says so. -/
theorem audit_reconciles_recorded :
    (∃ t, Run accountService.step (.initial AccountDB.new) applyingRun t ∧
      ∃ row, t.store.transactions.rows = [row] ∧
        t.store.auditLog.countP (fun entry =>
          entry.outcome = "APPLIED" ∧ entry.key = row.auditKey) = 1) ∧
    ∃ t, Run (gatewayService calmSettings).step (.initial GatewayDB.new) acceptingRun t ∧
      ∃ row, t.store.events.rows = [row] ∧
        t.store.auditLog.countP (fun entry =>
          entry.outcome = "ACCEPTED" ∧ entry.key = row.auditKey) = 1 := by
  obtain ⟨haccount, hgateway⟩ := audit_reconciles
  constructor
  · obtain ⟨t, hrun, hend⟩ := Option.map_eq_some_iff.mp
      (show (applyingRun.foldlM accountService.step (.initial AccountDB.new)).map
        (fun t => (decide t.Quiet, t.store.transactions.rows.length)) = some (true, 1) by
          decide +kernel)
    obtain ⟨hquiet, hlength⟩ := Prod.mk.inj hend
    obtain ⟨row, hrow⟩ := List.length_eq_one_iff.mp hlength
    exact ⟨t, hrun, row, hrow, (haccount _ t hrun).1.of_row (of_decide_eq_true hquiet) row
      (hrow ▸ List.mem_singleton_self row)⟩
  · obtain ⟨t, hrun, hend⟩ := Option.map_eq_some_iff.mp
      (show (acceptingRun.foldlM (gatewayService calmSettings).step (.initial GatewayDB.new)).map
        (fun t => (decide t.Quiet, t.store.events.rows.length)) = some (true, 1) by
          decide +kernel)
    obtain ⟨hquiet, hlength⟩ := Prod.mk.inj hend
    obtain ⟨row, hrow⟩ := List.length_eq_one_iff.mp hlength
    exact ⟨t, hrun, row, hrow, (hgateway _ _ t hrun).1.of_row (of_decide_eq_true hquiet) row
      (hrow ▸ List.mem_singleton_self row)⟩

end EventLedger
