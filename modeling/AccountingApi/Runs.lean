import AccountingApi.Conformance.Accounts
import AccountingApi.Conformance.Payments
import AccountingApi.Conformance.Periods

/-!
# The runs of the API

Every request keeps the protocol, so the commits of a run are the specified transactions, whatever
the interleaving. What each of them keeps holds in every reachable state.

## Main definitions

* `Initial`: the stores a run starts from

## Main results

* `sound_of_reachable`: every reachable server is sound
* `invariant_of_reachable`: what every commit keeps holds in every reachable state
* `commit_of_reachable`: what holds of every commit of a run
-/

namespace AccountingApi

open ReadCommitted Relation

/-- **Every request keeps the protocol.** -/
theorem code_wp (strict : Prop) (r : Request) :
    (code r).wp (protocol strict) r {} fun _ _ => True := by
  cases r with
  | createDocument kind dto user newId collation => exact createDocument_wp kind dto user newId collation
  | updateDocument kind id dto collation => exact updateDocument_wp kind id dto collation
  | postDocument kind id user entryId now collation =>
    exact postDocument_wp kind id user entryId now collation
  | voidDocument kind id user entryId now => exact voidDocument_wp kind id user entryId now
  | deleteDocument kind id user now => exact deleteDocument_wp kind id user now
  | createPayment dto user newId => exact createPayment_wp dto user newId
  | postPayment id user entryId now scan answer => exact postPayment_wp id user entryId now scan answer
  | voidPayment id user entryId now scan answer => exact voidPayment_wp id user entryId now scan answer
  | deletePayment id user now => exact deletePayment_wp id user now
  | createEntry dto user entryId => exact createEntry_wp dto user entryId
  | createAndPostEntry dto user entryId now => exact createAndPostEntry_wp dto user entryId now
  | postEntry id user now => exact postEntry_wp id user now
  | reverseEntry id user entryId now => exact reverseEntry_wp id user entryId now
  | deleteEntry id user now => exact deleteEntry_wp id user now
  | postOpeningBalances date balances user entryId now =>
    exact postOpeningBalances_wp date balances user entryId now
  | closeYear fiscalYear user entryId now => exact closeYear_wp fiscalYear user entryId now
  | reopenYear fiscalYear user entryId now => exact reopenYear_wp fiscalYear user entryId now
  | updateTaxCode id rate isActive => exact updateTaxCode_wp id rate isActive
  | createAccount input newId => exact createAccount_wp input newId
  | updateAccount id input => exact updateAccount_wp id input
  | deactivateAccount id => exact deactivateAccount_wp id
  | deleteAccount id user now => exact deleteAccount_wp id user now
  | updateCompany input => exact updateCompany_wp input
  | generatePeriods dto newId => exact generatePeriods_wp dto newId
  | closePeriod id user now => exact closePeriod_wp id user now
  | reopenPeriod id => exact reopenPeriod_wp id

/-- The rows of the one store are those of the other, each some steps further. -/
structure Persists (s db : Db) : Prop where
  entry : ∀ {id e}, Db.entry s id = some e →
    ∃ e', Db.entry db id = some e' ∧ ReflTransGen EntryStep e e'
  document : ∀ {kind id d}, Db.document s kind id = some d →
    ∃ d', Db.document db kind id = some d' ∧ ReflTransGen DocumentStep d d'
  payment : ∀ {id p}, Db.payment s id = some p →
    ∃ p', Db.payment db id = some p' ∧ ReflTransGen PaymentStep p p'
  period : ∀ {id p}, Db.period s id = some p → ∃ p', Db.period db id = some p' ∧ p.Alike p'

theorem Persists.refl (db : Db) : Persists db db :=
  ⟨fun he => ⟨_, he, .refl⟩, fun hd => ⟨_, hd, .refl⟩, fun hp => ⟨_, hp, .refl⟩,
    fun hp => ⟨_, hp, .refl _⟩⟩

theorem Persists.trans {s t u : Db} (h : Persists s t) (h' : Persists t u) : Persists s u where
  entry := fun he => by
    obtain ⟨e, he, hsteps⟩ := h.entry he
    obtain ⟨e', he', hsteps'⟩ := h'.entry he
    exact ⟨e', he', hsteps.trans hsteps'⟩
  document := fun hd => by
    obtain ⟨d, hd, hsteps⟩ := h.document hd
    obtain ⟨d', hd', hsteps'⟩ := h'.document hd
    exact ⟨d', hd', hsteps.trans hsteps'⟩
  payment := fun hp => by
    obtain ⟨p, hp, hsteps⟩ := h.payment hp
    obtain ⟨p', hp', hsteps'⟩ := h'.payment hp
    exact ⟨p', hp', hsteps.trans hsteps'⟩
  period := fun hp => by
    obtain ⟨p, hp, halike⟩ := h.period hp
    obtain ⟨p', hp', halike'⟩ := h'.period hp
    exact ⟨p', hp', halike.trans halike'⟩

theorem Transacts.persists {strict : Prop} {c : Commit} (h : Transacts strict c) :
    Persists c.before c.after where
  entry := fun he => (h.entry_step he).imp fun _ => And.imp_right .single
  document := fun hd => (h.document_step hd).imp fun _ => And.imp_right .single
  payment := fun hp => (h.payment_step hp).imp fun _ => And.imp_right .single
  period := fun hp => (h.periodNext hp).imp fun _ => And.imp_right PeriodNext.alike

/-- A store no request has written to: any settings, accounts, partners, tax codes and periods, but no
journal entries, documents, payments, counters and year-end records. -/
structure Initial (db : Db) : Prop where
  entry : ∀ id, Db.entry db id = none
  document : ∀ kind id, Db.document db kind id = none
  documentLines : ∀ kind id, db.row (.documentLines kind id) = none
  payment : ∀ id, Db.payment db id = none
  closing : ∀ fiscalYear, Db.closing db fiscalYear = none
  sequence : ∀ s, Db.sequence db s = none

/-- The tables that hold no journal entries, documents, payments, counters and year-end records. -/
def Key.IsConfiguration : Key → Prop
  | .settings | .account _ | .partner _ | .taxCode _ | .period _ => True
  | _ => False

/-- A store of configuration rows is initial. -/
theorem Initial.of_rows {ws : List (Write Row)} (h : ∀ w ∈ ws, w.1.IsConfiguration) :
    Initial (Store.empty.putAll ws) := by
  have hrow : ∀ k : Key, ¬ k.IsConfiguration → (Store.empty.putAll ws : Db).row k = none :=
    fun k hk => Store.row_putAll_of_notMem _ fun w hw hwk => hk (hwk ▸ h w hw)
  exact
    { entry := fun _ => (Db.entry_eq_row _ _).trans (hrow _ id)
      document := fun _ _ => (Db.document_eq_row _ _ _).trans (hrow _ id)
      documentLines := fun _ _ => hrow _ id
      payment := fun _ => (Db.payment_eq_row _ _).trans (hrow _ id)
      closing := fun _ => (Db.closing_eq_row _ _).trans (hrow _ id)
      sequence := fun _ => (Db.sequence_eq_row _ _).trans (hrow _ id) }

section Reachable

variable {policy : Policy Row LockName Query Failure Response Request} {db₀ : Db} {s : Server}

/-- The commits of a run, where `strict` promises that each of them excludes postings. -/
theorem sound_of_reachable {strict : Prop} (h : Reachable code policy db₀ s)
    (hstrict : strict → ∀ c ∈ s.history, ExcludesPostings c) : s.Sound (protocol strict) db₀ :=
  ReadCommitted.Reachable.sound h (fun _ r _ => code_wp strict r) fun c hc hs => hstrict hs c hc

/-- The commits of any run. -/
theorem chain_of_reachable (h : Reachable code policy db₀ s) :
    Chain (protocol False) db₀ s.history s.db :=
  (sound_of_reachable h False.elim).chain

variable (cond : Commit → Prop) {I : Db → Prop}

/-- What every commit keeps holds of every committed store. The stores the request of a commit has read
meet the invariant as well, and their rows persist. -/
theorem past_of_reachable (h : Reachable code policy db₀ s) (hcond : ∀ c ∈ s.history, cond c)
    (h₀ : I db₀)
    (hstep : ∀ c, Transacts False c → cond c → I c.before →
      (∀ q ∈ c.seen, I q.2 ∧ Persists q.2 c.before) → I c.after) :
    ∀ t, Past db₀ s.history t → I t :=
  (chain_of_reachable h).always Persists.refl (fun _ _ _ => Persists.trans)
    (fun _ hc => hc.persists) h₀ fun c hc hguar => hstep c hguar (hcond c hc)

/-- **What every commit keeps holds in every reachable state.** -/
theorem invariant_of_reachable (h : Reachable code policy db₀ s) (hcond : ∀ c ∈ s.history, cond c)
    (h₀ : I db₀)
    (hstep : ∀ c, Transacts False c → cond c → I c.before →
      (∀ q ∈ c.seen, I q.2 ∧ Persists q.2 c.before) → I c.after) : I s.db :=
  past_of_reachable cond h hcond h₀ hstep _ (chain_of_reachable h).past_self

/-- **The commits of a run**, with the invariant of the stores they find and of those they have read. -/
theorem commit_of_reachable (h : Reachable code policy db₀ s) (hcond : ∀ c ∈ s.history, cond c)
    (h₀ : I db₀)
    (hstep : ∀ c, Transacts False c → cond c → I c.before →
      (∀ q ∈ c.seen, I q.2 ∧ Persists q.2 c.before) → I c.after) {c : Commit}
    (hmem : c ∈ s.history) :
    Transacts False c ∧ I c.before ∧ ∀ q ∈ c.seen, I q.2 ∧ Persists q.2 c.before := by
  have hpast := past_of_reachable cond h hcond h₀ hstep
  obtain ⟨hguar, hbefore, hseen⟩ := (chain_of_reachable h).of_mem Persists.refl
    (fun _ _ _ => Persists.trans) (fun _ hc => hc.persists) hmem
  exact ⟨hguar, hpast _ hbefore, fun q hq => (hseen q hq).imp_left (hpast _)⟩

end Reachable

/-! ## A company -/

namespace Sample

def newYearsDay2025 : UtcDay := ⟨2025, 1, 1, by decide, by decide, by decide, by decide⟩

def midYear2025 : UtcDay := ⟨2025, 6, 30, by decide, by decide, by decide, by decide⟩

def yearEnd2025 : UtcDay := ⟨2025, 12, 31, by decide, by decide, by decide, by decide⟩

def newYearsDay : UtcDay := ⟨2026, 1, 1, by decide, by decide, by decide, by decide⟩

def midYear : UtcDay := ⟨2026, 6, 30, by decide, by decide, by decide, by decide⟩

def yearEnd : UtcDay := ⟨2026, 12, 31, by decide, by decide, by decide, by decide⟩

/-- The subtype of the accounts of a type. -/
def subtype : AccountType → AccountSubtype
  | .asset => .currentAsset
  | .liability => .currentLiability
  | .equity => .equity
  | .revenue => .revenue
  | .expense => .operatingExpense

def account (code : String) (type : AccountType) (role : Option AccountRole)
    (normalBalance : NormalBalance) : Account :=
  ⟨code, code, type, subtype type, .none, role, normalBalance, none, true, true, none, none⟩

/-- A company with one account for each purpose, one partner and the open year 2026. -/
def rows : List (Write Row) := [
  ⟨.settings, ⟨"Company", none, none, ⟨1, by decide, by decide⟩, false, true⟩⟩,
  ⟨.account 1, account "1100" .asset (some .cash) .debit⟩,
  ⟨.account 2, account "1200" .asset (some .arControl) .debit⟩,
  ⟨.account 3, account "2100" .liability (some .apControl) .credit⟩,
  ⟨.account 4, account "3100" .equity (some .retainedEarnings) .credit⟩,
  ⟨.account 5, account "4100" .revenue none .credit⟩,
  ⟨.account 6, account "5100" .expense none .debit⟩,
  ⟨.partner 7, ⟨"Partner", true, true, true, none⟩⟩,
  ⟨.period 8, ⟨2026, 1, "2026-01", newYearsDay, yearEnd, .opened, none, none⟩⟩]

def db : Db := Store.empty.putAll rows

theorem initial : Initial db := .of_rows (by simp [rows, Key.IsConfiguration])

theorem rupiah_nonneg (n : ℕ) : 0 ≤ (n : ℤ) * 10 ^ 4 := by positivity

theorem rupiah_storable {n : ℕ} (h : n < 10 ^ 16) : Money.Storable ((n : ℤ) * 10 ^ 4) := by
  simp only [Money.Storable]
  omega

/-- Whole rupiah. -/
def rupiah (n : ℕ) (h : n < 10 ^ 16 := by decide) : MoneyString :=
  ⟨n * 10 ^ 4, rupiah_nonneg n, rupiah_storable h⟩

/-- The server after a list of events, where they are possible. -/
def server (es : List (Event Request)) : Server := ((Server.start db).run code es).getD (.start db)

theorem reachable {es : List (Event Request)} (h : ((Server.start db).run code es).isSome = true) :
    Reachable code (anytime fun _ => True) db (server es) := by
  obtain ⟨s, hs⟩ := Option.isSome_iff_exists.mp h
  rw [server, hs]
  exact Reachable.run .start (fun _ _ => trivial) hs

/-- A request that comes in as the number `pid` and runs `n` statements. -/
def request (pid : ℕ) (r : Request) (n : ℕ) : List (Event Request) :=
  .spawn r :: List.replicate n (.step pid)

def lastYear : CloseYearDto := ⟨2025, by decide, by decide⟩

def thisYear : CloseYearDto := ⟨2026, by decide, by decide⟩

/-- An entry from cash to sales, posted at once. -/
def cashSale : CreateJournalEntryDto :=
  ⟨midYear, "Cash sale", [⟨1, some (rupiah 100), none, none⟩, ⟨5, none, some (rupiah 100), none⟩]⟩

/-- An invoice over one line without taxes. -/
def invoice : CreateDocumentDto :=
  ⟨7, none, midYear, none, none,
    [⟨"Goods", 5, ⟨10000, by decide, by decide⟩, rupiah 100, []⟩]⟩

/-- The invoice drafted under the key `20` and posted with the entry `100`. -/
def postedInvoice : List (Event Request) :=
  request 0 (.createDocument .salesInvoice invoice 9 20 .ordinal) 9 ++
    request 1 (.postDocument .salesInvoice 20 9 100 1 .ordinal) 30

/-- An update that doubles the invoice. -/
def doubled : UpdateDocumentDto :=
  ⟨none, none, none, none, some [⟨"Goods", 5, ⟨10000, by decide, by decide⟩, rupiah 200, []⟩]⟩

/-- A receipt that settles the invoice under the key `id`. -/
def receipt (id : Uuid) : CreatePaymentDto :=
  ⟨.receipt, 7, midYear, 1, none, [⟨some id, none, rupiah 100⟩]⟩

end Sample

end AccountingApi
