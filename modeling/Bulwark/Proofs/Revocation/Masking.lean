import Bulwark.Proofs.Revocation.Agreement
import Bulwark.Proofs.Revocation.Run

/-!
# What events tell of a token

Two runs that differ only in two tokens of one mask report the same events, but for one kind of
call: a lookup of one of the tokens that finds a hash under its key.  The store's error names the
key, and the lookup logs the error (`events_eq_iff`).
-/

namespace Bulwark.Blacklist

variable {x : Exchange} {scans : Prop} {b : Blacklist}

/-! ## Lookups -/

/-- Whether a reading passes the gate and finds a hash. -/
def readsHash (g : Gate) (now : Instant) (key : String) : Bool :=
  match g.refusal?, g.store.visible? now key with
  | none, some ⟨.hash _, _⟩ => true
  | _, _ => false

/-- What a reading of an exchanged key answers: the same, but for the error that names the key. -/
theorem call_get_cases {g g' : Gate} (hgate : x.Mirrored scans g g') (now : Instant)
    (key : String) :
    x.Mirrored scans (g.call (·.get now key)).2 (g'.call (·.get now (x.onKeys key))).2 ∧
      match readsHash g now key with
      | false => (g'.call (·.get now (x.onKeys key))).1 = (g.call (·.get now key)).1
      | true => (g.call (·.get now key)).1 = .error (Store.wrongType key) ∧
        (g'.call (·.get now (x.onKeys key))).1 = .error (Store.wrongType (x.onKeys key)) := by
  have hafter : x.Mirrored scans (g.call (·.get now key)).2
      (g'.call (·.get now (x.onKeys key))).2 := by
    refine (hgate.call (R := fun _ _ => True) (fun _ => trivial) trivial ?_).1
    rw [hgate.store_eq, Store.get_rename]
  refine ⟨hafter, ?_⟩
  unfold readsHash
  cases hrefusal : g.refusal? with
  | some e =>
    rw [Gate.call_of_refusal hrefusal, Gate.call_of_refusal (hgate.refusal?_eq.trans hrefusal)]
  | none =>
    rw [Gate.call_of_pass hrefusal, Gate.call_of_pass (hgate.refusal?_eq.trans hrefusal),
      hgate.store_eq, Store.get_rename, Store.get_answer]
    rcases g.store.visible? now key with _ | ⟨_ | fields, deadline⟩
    · exact rfl
    · exact rfl
    · exact ⟨rfl, rfl⟩

/-- What a lookup does with the answer of the store. -/
def afterRead (b : Blacklist) (now : Instant) (token : String) :
    Except StoreError (Option String) → Action Bool
  | .ok none => do
    count (·.recordLookup false)
    pure false
  | .ok (some text) => do
    let revoked ← revokes now text
    count (·.recordLookup revoked)
    pure revoked
  | .error e => do
    let revoked := b.failureMode.revokedOnError
    report [.log (.of .warn "Revocation lookup failed"
      [("token", maskToken token), ("error", e.message),
        ("failure_mode", b.failureMode.logName), ("revoked", toString revoked)])]
    count (·.recordLookupError)
    pure revoked

theorem isRevoked_eq {now : Instant} {token : String} (h : ¬ Text.allBlank token = true) :
    b.isRevoked now token = callStore (·.get now (b.key token)) >>= b.afterRead now token :=
  (if_neg h).trans rfl

theorem afterRead_agrees (hx : x.Masked) (now : Instant) (token : String)
    (answer : Except StoreError (Option String)) :
    Agrees x scans (b.afterRead now token answer) (b.afterRead now (x.onTokens token) answer)
      fun _ _ => True := by
  match answer with
  | .ok none => exact (Agrees.count _ _).bind fun _ _ _ => .pure trivial
  | .ok (some text) =>
    have hrevokes : Agrees x scans (revokes now text) (revokes now text) fun _ _ => True := by
      unfold revokes
      split
      · exact .pure trivial
      · exact (Agrees.ofClock now).bind fun _ _ _ => .pure trivial
    exact hrevokes.bind fun _ _ _ => (Agrees.count _ _).bind fun _ _ _ => .pure trivial
  | .error e =>
    unfold afterRead
    rw [hx.mask_onTokens]
    exact (Agrees.report rfl).bind fun _ _ _ => (Agrees.count _ _).bind fun _ _ _ => .pure trivial

/-- Whether a call looks up one of two different tokens and finds a hash under its key. -/
def reveals (x : Exchange) (g : Gate) (now : Instant) : Call → Bool
  | .isRevoked token => x.onTokens token != token && readsHash g now (x.keyPrefix ++ token)
  | _ => false

theorem reveals_isRevoked {g : Gate} {now : Instant} {token : String} :
    reveals x g now (.isRevoked token) = true ↔
      x.onTokens token ≠ token ∧ readsHash g now (x.keyPrefix ++ token) = true := by
  rw [reveals, Bool.and_eq_true, bne_iff_ne]

/-- How two sessions stand after a call: behind mirrored gates, with the same audit events and as
many log entries; these are the same unless the call reveals a token. -/
structure Compared (x : Exchange) (scans revealed : Prop) (t t' : Session) : Prop where
  gate : x.Mirrored scans t.gate t'.gate
  audits_eq : auditEvents t.events = auditEvents t'.events
  logs_length_eq : ∀ auditToLog,
    (logEntries auditToLog t.events).length = (logEntries auditToLog t'.events).length
  logs_eq_iff : ∀ auditToLog,
    logEntries auditToLog t.events = logEntries auditToLog t'.events ↔ ¬ revealed

/-- A call has logged as many entries in both runs, so what follows in the logs splits off. -/
theorem Compared.append_iff {revealed same : Prop} {t t' : Session}
    (h : Compared x scans revealed t t') {auditToLog : Bool} {later later' : List Event}
    (hlater : logEntries auditToLog later = logEntries auditToLog later' ↔ same) :
    logEntries auditToLog (t.events ++ later) = logEntries auditToLog (t'.events ++ later') ↔
      ¬ revealed ∧ same := by
  rw [logEntries_append, logEntries_append, ← h.logs_eq_iff auditToLog, ← hlater]
  constructor
  · intro happend
    exact List.append_inj happend (h.logs_length_eq auditToLog)
  · rintro ⟨hfirst, hrest⟩
    rw [hfirst, hrest]

/-- Agreeing calls compare where nothing is revealed. -/
theorem Agrees.compared {β γ : Type} {c : Action β} {c' : Action γ} {R : β → γ → Prop}
    {revealed : Prop} {s s' : Session} (h : Agrees x scans c c' R)
    (hgate : x.Mirrored scans s.gate s'.gate) (hevents : s.events = s'.events)
    (hnot : ¬ revealed) :
    Together (fun _ t _ t' => Compared x scans revealed t t') (c s) (c' s') := by
  refine (h s s' hgate hevents).mono fun _ t _ t' ⟨hafter, heq, _⟩ => ⟨hafter, ?_, ?_, ?_⟩
  · rw [heq]
  · intro auditToLog
    rw [heq]
  · exact fun auditToLog => iff_of_true (by rw [heq]) hnot

/-- The text of the store's error tells the key. -/
theorem message_wrongType_inj {key key' : String}
    (h : (Store.wrongType key).message = (Store.wrongType key').message) : key = key' := by
  unfold Store.wrongType StoreError.message at h
  have hquoted := String.append_left_inj _ |>.mp (String.append_right_inj _ |>.mp h)
  exact String.append_right_inj _ |>.mp hquoted

/-- After an error that names the key, the lookups have logged different entries. -/
theorem afterRead_wrongType_compared (now : Instant) {token token' key key' : String}
    {revealed : Prop} {s s' : Session} (hgate : x.Mirrored scans s.gate s'.gate)
    (hevents : s.events = s'.events) (hne : key ≠ key') (hrevealed : revealed) :
    Together (fun _ t _ t' => Compared x scans revealed t t')
      (b.afterRead now token (.error (Store.wrongType key)) s)
      (b.afterRead now token' (.error (Store.wrongType key')) s') := by
  refine ⟨hgate, ?_, fun auditToLog => ?_, fun auditToLog => iff_of_false ?_ ?_⟩
  · show auditEvents (s.events ++ [_]) = auditEvents (s'.events ++ [_])
    rw [auditEvents_append, auditEvents_append, hevents]
    rfl
  · show (logEntries auditToLog (s.events ++ [_])).length =
      (logEntries auditToLog (s'.events ++ [_])).length
    rw [logEntries_append, logEntries_append, List.length_append, List.length_append, hevents]
    rfl
  · intro hlogs
    change logEntries auditToLog (s.events ++ [_]) = logEntries auditToLog (s'.events ++ [_])
      at hlogs
    -- the entries differ in the field that holds the error
    rw [logEntries_append, logEntries_append, hevents] at hlogs
    have hentry := (List.cons.inj (List.append_cancel_left hlogs)).1
    have hfields := (List.cons.inj (congrArg LogEntry.fields hentry)).2
    exact hne (message_wrongType_inj (Prod.mk.inj (List.cons.inj hfields).1).2)
  · exact not_not_intro hrevealed

theorem isRevoked_compared (hx : x.Masked) (hb : b.keyPrefix = x.keyPrefix) (now : Instant)
    (token : String) {s s' : Session} (hgate : x.Mirrored scans s.gate s'.gate)
    (hevents : s.events = s'.events) :
    Together (fun _ t _ t' => Compared x scans (reveals x s.gate now (.isRevoked token)) t t')
      (b.isRevoked now token s) (b.isRevoked now (x.onTokens token) s') := by
  have hkey : b.key token = x.keyPrefix ++ token := congrArg (· ++ token) hb
  by_cases hblank : Text.allBlank token = true
  · have hnot : ¬ reveals x s.gate now (.isRevoked token) := by
      intro hreveals
      rcases Exchange.eq_of_onTokens_ne (reveals_isRevoked.mp hreveals).1 with rfl | rfl
      · exact absurd hblank (by rw [hx.token_not_blank]; decide)
      · exact absurd hblank (by rw [hx.other_not_blank]; decide)
    -- a blank token is answered without the store, and neither of the two is blank
    unfold isRevoked
    rw [hx.allBlank_onTokens, if_pos hblank, if_pos hblank]
    exact (Agrees.pure (R := fun _ _ => True) trivial).compared hgate hevents hnot
  · rw [isRevoked_eq hblank, isRevoked_eq (by rw [hx.allBlank_onTokens]; exact hblank),
      key_onTokens hb]
    obtain ⟨hafter, hcases⟩ := call_get_cases hgate now (b.key token)
    show Together _ (b.afterRead now token (s.gate.call (·.get now (b.key token))).1
        { s with gate := (s.gate.call (·.get now (b.key token))).2 })
      (b.afterRead now (x.onTokens token) (s'.gate.call (·.get now (x.onKeys (b.key token)))).1
        { s' with gate := (s'.gate.call (·.get now (x.onKeys (b.key token)))).2 })
    cases hread : readsHash s.gate now (b.key token) with
    | false =>
      rw [hread] at hcases
      rw [hcases]
      refine (afterRead_agrees hx now token _).compared hafter hevents fun hreveals => ?_
      rw [hkey, (reveals_isRevoked.mp hreveals).2] at hread
      exact Bool.noConfusion hread
    | true =>
      rw [hread] at hcases
      obtain ⟨herror, herror'⟩ := hcases
      by_cases hsame : x.onTokens token = token
      · have hname : x.onKeys (b.key token) = b.key token := by
          rw [← key_onTokens hb, hsame]
        rw [hname] at herror' hafter ⊢
        rw [herror, herror']
        exact (afterRead_agrees hx now token _).compared hafter hevents fun hreveals =>
          (reveals_isRevoked.mp hreveals).1 hsame
      · -- both lookups log the error of the store, which names the key
        rw [herror, herror']
        refine afterRead_wrongType_compared now hafter hevents ?_
          (reveals_isRevoked.mpr ⟨hsame, hkey ▸ hread⟩)
        intro hname
        rw [← key_onTokens hb] at hname
        exact hsame ((String.append_right_inj _).mp hname).symm

/-! ## Whole runs -/

/-- A call with other tokens. -/
def Call.rename (f : String → String) : Call → Call
  | .add token reason ttlSeconds => .add (f token) reason ttlSeconds
  | .addOrLog token reason ttlSeconds => .addOrLog (f token) reason ttlSeconds
  | .addEach tokens reason ttlSeconds => .addEach (tokens.map f) reason ttlSeconds
  | .isRevoked token => .isRevoked (f token)
  | .info token => .info (f token)
  | .remove token => .remove (f token)
  | .listAll => .listAll
  | .sweep => .sweep

/-- A call walks the keys. -/
def Call.Scans : Call → Prop
  | .listAll => True
  | .sweep => True
  | _ => False

theorem perform_compared (hx : x.Masked) (hb : b.keyPrefix = x.keyPrefix) (now : Instant)
    {call : Call} (hscans : call.Scans → scans) {s s' : Session}
    (hgate : x.Mirrored scans s.gate s'.gate) (hevents : s.events = s'.events) :
    Together (fun _ t _ t' => Compared x scans (reveals x s.gate now call) t t')
      (b.perform now call s) (b.perform now (call.rename x.onTokens) s') := by
  cases call with
  | add token reason ttlSeconds =>
    exact ((add_agrees hx hb now token reason ttlSeconds).compared hgate hevents nofun).map
  | addOrLog token reason ttlSeconds =>
    exact ((addOrLog_agrees hx hb now token reason ttlSeconds).compared hgate hevents nofun).map
  | addEach tokens reason ttlSeconds =>
    exact ((addEach_agrees hx hb now reason ttlSeconds tokens).compared hgate hevents nofun).map
  | isRevoked token => exact (isRevoked_compared hx hb now token hgate hevents).map
  | info token => exact ((info_agrees hx hb now token).compared hgate hevents nofun).map
  | remove token => exact ((remove_agrees hx hb now token).compared hgate hevents nofun).map
  | listAll => exact ((listAll_agrees hb (hscans trivial) now).compared hgate hevents nofun).map
  | sweep => exact ((sweep_agrees hb (hscans trivial) now).compared hgate hevents nofun).map

/-- Two runs make the same calls with exchanged tokens, and what happens outside keeps gates
mirrored. -/
inductive Happening.Mirrors (x : Exchange) (scans : Prop) : Happening → Happening → Prop
  | turn {t : Turn} (h : t.call.Scans → scans) :
    Mirrors x scans (.turn t) (.turn { t with call := t.call.rename x.onTokens })
  | outside {change change' : Gate → Gate}
    (h : ∀ g g', x.Mirrored scans g g' → x.Mirrored scans (change g) (change' g')) :
    Mirrors x scans (.outside change) (.outside change')

/-- What the calls of a run have reported. -/
def reported (records : List Record) : List Event := records.flatMap (·.events)

/-- **Tokens are told apart by nothing but the store's error in a lookup.**  Two runs that differ
only in two tokens of one mask halt for one reason and report the same audit events.  They report
the same log entries exactly if no lookup of one of the tokens finds a hash under its key. -/
theorem events_eq_iff (hx : x.Masked) {hs hs' : List Happening}
    (hrun : List.Forall₂ (Happening.Mirrors x scans) hs hs') :
    ∀ {g g' : Gate}, x.Mirrored scans g g' →
      (history x.keyPrefix g hs).2 = (history x.keyPrefix g' hs').2 ∧
      auditEvents (reported (history x.keyPrefix g hs).1) =
        auditEvents (reported (history x.keyPrefix g' hs').1) ∧
      ∀ auditToLog, logEntries auditToLog (reported (history x.keyPrefix g hs).1) =
          logEntries auditToLog (reported (history x.keyPrefix g' hs').1) ↔
        ∀ r ∈ (history x.keyPrefix g hs).1,
          reveals x r.before.gate r.turn.now r.turn.call = false := by
  induction hrun with
  | nil =>
    exact fun _ => ⟨rfl, rfl, fun _ => iff_of_true rfl fun _ hr => absurd hr List.not_mem_nil⟩
  | cons hhappening _ ih =>
    intro g g' hgate
    cases hhappening with
    | outside h => exact ih (h g g' hgate)
    | @turn t hscans =>
      have hcall : Together
          (fun _ u _ u' => Compared x scans (reveals x g t.now t.call) u u')
          (perform ⟨x.keyPrefix, t.failureMode⟩ t.now t.call ⟨g, t.counts, []⟩)
          (perform ⟨x.keyPrefix, t.failureMode⟩ t.now (t.call.rename x.onTokens)
            ⟨g', t.counts, []⟩) :=
        perform_compared hx rfl t.now hscans hgate rfl
      rw [history, history]
      rcases hcall.cases with ⟨halt, hc, hc'⟩ | ⟨reply, after, reply', after', hc, hc', hafter⟩
      · rw [hc, hc']
        exact ⟨rfl, rfl, fun _ => iff_of_true rfl fun _ hr => absurd hr List.not_mem_nil⟩
      · rw [hc, hc']
        obtain ⟨hhalt, haudits, hlogs⟩ := ih hafter.gate
        refine ⟨hhalt, ?_, fun auditToLog => ?_⟩
        · show auditEvents (after.events ++ reported _) = auditEvents (after'.events ++ reported _)
          rw [auditEvents_append, auditEvents_append, hafter.audits_eq, haudits]
        · refine (hafter.append_iff (hlogs auditToLog)).trans ?_
          rw [Bool.not_eq_true]
          exact (@List.forall_mem_cons Record
            (fun r => reveals x r.before.gate r.turn.now r.turn.call = false)
            ⟨t, ⟨g, t.counts, []⟩, reply, after.events⟩ _).symm

/-- Two tokens of one mask. -/
def liveTokens : Exchange :=
  ⟨"auth:blacklist:", "sk-live-0123456789abcdef", "sk-live-76543210ffffcdef"⟩

theorem masked_liveTokens : liveTokens.Masked :=
  ⟨by decide +kernel, by decide +kernel, by decide +kernel⟩

theorem onTokens_liveTokens : liveTokens.onTokens liveTokens.token = liveTokens.other :=
  Equiv.swap_apply_left _ _

/-- A store with a hash under the key of a token. -/
def hashGate (token : String) : Gate :=
  .opened (fun _ => 0) (Store.empty.put ("auth:blacklist:" ++ token) (.hash .empty) none)

theorem mirrored_hashGate :
    liveTokens.Mirrored False (hashGate liveTokens.token) (hashGate liveTokens.other) where
  store_eq := by
    unfold hashGate
    rw [← onTokens_liveTokens]
    show Store.empty.put (liveTokens.keyPrefix ++ _) _ _ = _
    rw [← liveTokens.onKeys_append]
    exact congrArg Store.mk (Table.empty.insert_rename liveTokens.onKeys _ _)
  plan_eq := rfl
  failing_eq := rfl
  position_eq := False.elim
  position_injective := False.elim

/-- A token whose key holds a hash is described, looked up without the store, revoked and looked
up. -/
def describedAndRevoked (token : String) : List Happening :=
  [.turn ⟨.failSafe, .zero, ⟨0⟩, .info token⟩,
    .outside fun g => { g with failing := true },
    .turn ⟨.failClosed, .zero, ⟨1⟩, .isRevoked token⟩,
    .outside fun g => { g with failing := false },
    .turn ⟨.failSafe, .zero, ⟨2⟩, .addOrLog token "stolen" 60⟩,
    .turn ⟨.failSafe, .zero, ⟨3⟩, .isRevoked token⟩]

theorem mirrors_describedAndRevoked :
    List.Forall₂ (Happening.Mirrors liveTokens False) (describedAndRevoked liveTokens.token)
      (describedAndRevoked liveTokens.other) := by
  have hswitch (failing : Bool) : Happening.Mirrors liveTokens False
      (.outside fun g => { g with failing }) (.outside fun g => { g with failing }) :=
    .outside fun _ _ h => { h with failing_eq := rfl }
  rw [← onTokens_liveTokens]
  exact .cons (.turn id) <| .cons (hswitch true) <| .cons (.turn id) <| .cons (hswitch false) <|
    .cons (.turn id) <| .cons (.turn id) .nil

/-- What such a run logs does not tell the tokens apart. -/
theorem events_describedAndRevoked :
    liveTokens.Masked ∧
    List.Forall₂ (Happening.Mirrors liveTokens False) (describedAndRevoked liveTokens.token)
      (describedAndRevoked liveTokens.other) ∧
    liveTokens.Mirrored False (hashGate liveTokens.token) (hashGate liveTokens.other) ∧
    logEntries true (reported
        (history "auth:blacklist:" (hashGate liveTokens.token)
          (describedAndRevoked liveTokens.token)).1) =
      logEntries true (reported
        (history "auth:blacklist:" (hashGate liveTokens.other)
          (describedAndRevoked liveTokens.other)).1) := by
  refine ⟨masked_liveTokens, mirrors_describedAndRevoked, mirrored_hashGate, ?_⟩
  obtain ⟨-, -, hlogs⟩ :=
    events_eq_iff masked_liveTokens mirrors_describedAndRevoked mirrored_hashGate
  exact (hlogs true).mpr (by decide +kernel)

/-- A lookup that finds the hash logs the whole key, and so tells the tokens apart. -/
theorem isRevoked_hashGate_reveals :
    let lookup (token : String) : List Happening :=
      [.turn ⟨.failSafe, .zero, ⟨0⟩, .isRevoked token⟩]
    let logs (token : String) : List LogEntry :=
      logEntries true (reported (history "auth:blacklist:" (hashGate token) (lookup token)).1)
    liveTokens.Masked ∧
    List.Forall₂ (Happening.Mirrors liveTokens False) (lookup liveTokens.token)
      (lookup liveTokens.other) ∧
    liveTokens.Mirrored False (hashGate liveTokens.token) (hashGate liveTokens.other) ∧
    logs liveTokens.token ≠ logs liveTokens.other ∧
    logs "sk-live-0123456789abcdef" = [.of .warn "Revocation lookup failed"
      [("token", "sk-l...cdef"),
        ("error", "unexpected store reply: WRONGTYPE operation against key " ++
          "'auth:blacklist:sk-live-0123456789abcdef' holding the wrong kind of value"),
        ("failure_mode", "FailSafe"), ("revoked", "false")]] := by
  refine ⟨masked_liveTokens, ?_, mirrored_hashGate, by decide +kernel, by decide +kernel⟩
  rw [← onTokens_liveTokens]
  exact .cons (.turn id) .nil

end Bulwark.Blacklist
