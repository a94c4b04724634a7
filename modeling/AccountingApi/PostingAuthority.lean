import AccountingApi.Auth.Appointments
import AccountingApi.Segregation

/-!
# The authority to post

The books are kept on behalf of users: each call of a handler that changes them has passed the guards,
which look the caller up among the users. Users are demoted, deactivated and deleted while calls are under
way; what the books record of their authors still holds of some store the user administration has
committed.

## Main definitions

* `Request.handler`, `Request.actor`: the handler that makes a request, and on whose behalf
* `BooksCall`, `AdmitsBooks`: the calls, and which of them come in
* `Authorized`: the user has been in office with one of the roles
* `PostsAs`: the entries a request posts

## Main results

* `authorized_of_joint`: on whose behalf the books are changed
* `posted_of_joint`: who has posted an entry
-/

namespace AccountingApi

open ReadCommitted Posting
open Auth (Role Roles Handler Metadata JwtPayload AuthenticatedUser canActivate)

/-! ## Handlers -/

/-- The handlers of a document's controller that change the books. -/
structure DocumentController where
  create : Handler
  update : Handler
  post : Handler
  void : Handler
  remove : Handler

def SalesInvoicesController : DocumentController where
  create := ⟨Roles [.accountant, .approver, .admin] .plain, .plain⟩
  update := ⟨Roles [.accountant, .approver, .admin] .plain, .plain⟩
  post := ⟨Roles [.approver, .admin] .plain, .plain⟩
  void := ⟨Roles [.approver, .admin] .plain, .plain⟩
  remove := ⟨Roles [.accountant, .approver, .admin] .plain, .plain⟩

def PurchaseBillsController : DocumentController where
  create := ⟨Roles [.accountant, .approver, .admin] .plain, .plain⟩
  update := ⟨Roles [.accountant, .approver, .admin] .plain, .plain⟩
  post := ⟨Roles [.approver, .admin] .plain, .plain⟩
  void := ⟨Roles [.approver, .admin] .plain, .plain⟩
  remove := ⟨Roles [.accountant, .approver, .admin] .plain, .plain⟩

def DocumentKind.controller : DocumentKind → DocumentController
  | .salesInvoice => SalesInvoicesController
  | .purchaseBill => PurchaseBillsController

namespace PaymentsController

def create : Handler := ⟨Roles [.accountant, .approver, .admin] .plain, .plain⟩

def post : Handler := ⟨Roles [.approver, .admin] .plain, .plain⟩

def void : Handler := ⟨Roles [.approver, .admin] .plain, .plain⟩

def remove : Handler := ⟨Roles [.accountant, .approver, .admin] .plain, .plain⟩

end PaymentsController

namespace JournalController

def createOrPost : Handler := ⟨Roles [.accountant, .approver, .admin] .plain, .plain⟩

def post : Handler := ⟨Roles [.approver, .admin] .plain, .plain⟩

def reverse : Handler := ⟨Roles [.approver, .admin] .plain, .plain⟩

def remove : Handler := ⟨Roles [.accountant, .approver, .admin] .plain, .plain⟩

end JournalController

def OpeningBalancesController.post : Handler := ⟨Roles [.admin] .plain, .plain⟩

namespace ClosingController

def run : Handler := ⟨Roles [.admin] .plain, .plain⟩

def reopen : Handler := ⟨Roles [.admin] .plain, .plain⟩

end ClosingController

def TaxCodesController.update : Handler := ⟨Roles [.accountant, .approver, .admin] .plain, .plain⟩

namespace AccountsController

def create : Handler := ⟨Roles [.accountant, .approver, .admin] .plain, .plain⟩

def update : Handler := ⟨Roles [.accountant, .approver, .admin] .plain, .plain⟩

def deactivate : Handler := ⟨Roles [.admin] .plain, .plain⟩

def remove : Handler := ⟨Roles [.admin] .plain, .plain⟩

end AccountsController

def CompanyController.update : Handler := ⟨Roles [.admin] .plain, .plain⟩

namespace PeriodsController

def generate : Handler := ⟨Roles [.approver, .admin] .plain, .plain⟩

def close : Handler := ⟨Roles [.approver, .admin] .plain, .plain⟩

def reopen : Handler := ⟨Roles [.admin] .plain, .plain⟩

end PeriodsController

/-- The handler that makes the request. -/
def Request.handler : Request → Handler
  | .createDocument kind _ _ _ _ => kind.controller.create
  | .updateDocument kind _ _ _ => kind.controller.update
  | .postDocument kind _ _ _ _ _ => kind.controller.post
  | .voidDocument kind _ _ _ _ => kind.controller.void
  | .deleteDocument kind _ _ _ => kind.controller.remove
  | .createPayment _ _ _ => PaymentsController.create
  | .postPayment _ _ _ _ _ _ => PaymentsController.post
  | .voidPayment _ _ _ _ _ _ => PaymentsController.void
  | .deletePayment _ _ _ => PaymentsController.remove
  | .createEntry _ _ _ => JournalController.createOrPost
  | .createAndPostEntry _ _ _ _ => JournalController.createOrPost
  | .postEntry _ _ _ => JournalController.post
  | .reverseEntry _ _ _ _ => JournalController.reverse
  | .deleteEntry _ _ _ => JournalController.remove
  | .postOpeningBalances _ _ _ _ _ => OpeningBalancesController.post
  | .closeYear _ _ _ _ => ClosingController.run
  | .reopenYear _ _ _ _ => ClosingController.reopen
  | .updateTaxCode _ _ _ => TaxCodesController.update
  | .createAccount _ _ => AccountsController.create
  | .updateAccount _ _ => AccountsController.update
  | .deactivateAccount _ => AccountsController.deactivate
  | .deleteAccount _ _ _ => AccountsController.remove
  | .updateCompany _ => CompanyController.update
  | .generatePeriods _ _ => PeriodsController.generate
  | .closePeriod _ _ _ => PeriodsController.close
  | .reopenPeriod _ => PeriodsController.reopen

/-- The user a handler passes on as the one who calls it. -/
def Request.actor : Request → Option Uuid
  | .createDocument _ _ user _ _ => some user
  | .postDocument _ _ user _ _ _ => some user
  | .voidDocument _ _ user _ _ => some user
  | .deleteDocument _ _ user _ => some user
  | .createPayment _ user _ => some user
  | .postPayment _ user _ _ _ _ => some user
  | .voidPayment _ user _ _ _ _ => some user
  | .deletePayment _ user _ => some user
  | .createEntry _ user _ => some user
  | .createAndPostEntry _ user _ _ => some user
  | .postEntry _ user _ => some user
  | .reverseEntry _ user _ _ => some user
  | .deleteEntry _ user _ => some user
  | .postOpeningBalances _ _ user _ _ => some user
  | .closeYear _ user _ _ => some user
  | .reopenYear _ user _ _ => some user
  | .deleteAccount _ user _ => some user
  | .closePeriod _ user _ => some user
  | _ => none

/-- What a handler checks of its caller itself: an accountant may create an entry by the handler that
posts it at once when it is asked to. -/
def Request.Allows (r : Request) (user : AuthenticatedUser) : Prop :=
  match r with
  | .createAndPostEntry _ _ _ _ => user.role ≠ .accountant
  | _ => True

instance (r : Request) (user : AuthenticatedUser) : Decidable (r.Allows user) := by
  unfold Request.Allows
  split <;> infer_instance

/-! ## Calls -/

/-- A request with the access token it comes with and the user the guards attach to it. -/
structure BooksCall where
  request : Request
  bearer : Option JwtPayload
  user : AuthenticatedUser

/-- The call comes in: the guards of its handler attach the user, who is passed on. -/
def AdmitsBooks (users : Auth.Db) (c : BooksCall) : Prop :=
  canActivate users c.request.handler c.bearer = .ok (some c.user) ∧
    (∀ id ∈ c.request.actor, id = c.user.id) ∧ c.request.Allows c.user

instance (users : Auth.Db) (c : BooksCall) : Decidable (AdmitsBooks users c) :=
  inferInstanceAs (Decidable (_ ∧ _))

/-- The servers that run these calls. -/
abbrev BooksServer := ReadCommitted.Server Row LockName Query Failure Response BooksCall

/-- A commit of such a server. -/
abbrev BooksCommit := ReadCommitted.Commit Row LockName Query BooksCall

/-- The runs of the user administration and of the books together. -/
abbrev Operates (ttl : ℕ) (users₀ : Auth.Db) (db₀ : Db) :
    Auth.CallServer → BooksServer → Prop :=
  Joint (fun c => Auth.code ttl c.request) (fun c => code c.request) Auth.Admits AdmitsBooks users₀ db₀

/-- The user has been in office with one of the roles, and without a temporary password. -/
def Authorized (users₀ : Auth.Db) (h : List Auth.CallCommit) (user : AuthenticatedUser)
    (roles : List Role) : Prop :=
  ∃ users, Past users₀ h users ∧ user.InOffice users ∧ user.role ∈ roles ∧
    user.mustChangePassword = false

/-- Every handler that changes the books requires a role, and no viewer has it. -/
theorem Request.handler_eq (r : Request) : ∃ roles, r.handler = ⟨Roles roles .plain, .plain⟩ ∧
    roles ≠ [] ∧ Role.viewer ∉ roles := by
  cases r with
  | createDocument kind dto user newId collation => cases kind <;> exact ⟨_, rfl, by decide, by decide⟩
  | updateDocument kind id dto collation => cases kind <;> exact ⟨_, rfl, by decide, by decide⟩
  | postDocument kind id user entryId now collation => cases kind <;> exact ⟨_, rfl, by decide, by decide⟩
  | voidDocument kind id user entryId now => cases kind <;> exact ⟨_, rfl, by decide, by decide⟩
  | deleteDocument kind id user now => cases kind <;> exact ⟨_, rfl, by decide, by decide⟩
  | _ => exact ⟨_, rfl, by decide, by decide⟩

/-! ## Entries that are posted -/

/-- The request posts entries of that source. -/
def Request.PostsAs (r : Request) (sourceType : JournalSourceType) : Prop :=
  match r with
  | .postDocument kind _ _ _ _ _ => sourceType = kind.descriptor.sourceType
  | .postPayment _ _ _ _ _ _ => sourceType = .payment
  | .createAndPostEntry _ _ _ _ => sourceType = .manual
  | .postEntry _ _ _ => sourceType = .manual
  | .postOpeningBalances _ _ _ _ _ => sourceType = .opening
  | .closeYear _ _ _ _ => sourceType = .closing
  | .voidDocument _ _ _ _ _ => sourceType = .reversal
  | .voidPayment _ _ _ _ _ _ => sourceType = .reversal
  | .reverseEntry _ _ _ _ => sourceType = .reversal
  | .reopenYear _ _ _ _ => sourceType = .reversal
  | _ => False

/-- The roles of those who post entries of a source. -/
def JournalSourceType.posters : JournalSourceType → List Role
  | .opening => [.admin]
  | .closing => [.admin]
  | _ => [.approver, .admin]

/-- Whom the guards of a request and its handler let in may post what it posts. -/
theorem Request.PostsAs.posters {r : Request} {sourceType : JournalSourceType}
    {user : AuthenticatedUser} (h : r.PostsAs sourceType) (hrole : user.role ∈ r.handler.required)
    (hallows : r.Allows user) : user.role ∈ sourceType.posters := by
  cases r with
  | postDocument kind id user' entryId now collation =>
    rw [show sourceType = kind.descriptor.sourceType from h]
    cases kind <;> exact hrole
  | voidDocument kind id user' entryId now =>
    rw [show sourceType = .reversal from h]
    cases kind <;> exact hrole
  | createAndPostEntry dto user' entryId now =>
    rw [show sourceType = .manual from h]
    rcases List.mem_cons.mp hrole with haccountant | hrole
    · exact absurd haccountant hallows
    · exact hrole
  | reopenYear fiscalYear user' entryId now =>
    rw [show sourceType = .reversal from h]
    exact List.mem_cons_of_mem _ hrole
  | postPayment id user' entryId now scan answer => exact (show sourceType = .payment from h) ▸ hrole
  | voidPayment id user' entryId now scan answer => exact (show sourceType = .reversal from h) ▸ hrole
  | postEntry id user' now => exact (show sourceType = .manual from h) ▸ hrole
  | reverseEntry id user' entryId now => exact (show sourceType = .reversal from h) ▸ hrole
  | postOpeningBalances date balances user' entryId now =>
    exact (show sourceType = .opening from h) ▸ hrole
  | closeYear fiscalYear user' entryId now => exact (show sourceType = .closing from h) ▸ hrole
  | _ => exact h.elim

/-- The drafts are of manual entries. -/
def ManualDrafts (db : Db) : Prop :=
  ∀ id e, Db.entry db id = some e → e.status = .draft → e.sourceType = .manual

/-- The entries a commit writes: manual drafts, entries that were posted before, and those it posts on
behalf of its actor. -/
def PostsForActor (c : Commit) (x : Uuid × JournalEntry) : Prop :=
  (x.2.status = .draft ∧ x.2.sourceType = .manual) ∨
    (∃ e, Db.entry c.before x.1 = some e ∧ e.status ≠ .draft ∧ EntryStep e x.2) ∨
    (x.2.status ≠ .draft ∧ c.req.PostsAs x.2.sourceType ∧ x.2.postedBy = c.req.actor)

section Steps

variable {strict : Prop} {c : Commit} {id : Uuid} {e : JournalEntry}

theorem Created.postsForActor {p : PreparedPosting} {input : PostEntryInput} {user : Uuid}
    {now : Timestamp} {n : ℕ} {wn : List (Write Row)} (h : Created strict c p id now n wn e)
    (hp : Prepared c input user p) (hposts : c.req.PostsAs input.sourceType)
    (hactor : c.req.actor = some user) : ∀ x ∈ [(id, e)], PostsForActor c x := by
  refine List.forall_mem_singleton.mpr (.inr (.inr ?_))
  rw [h.eq_postedEntry hp, hactor]
  exact ⟨nofun, hposts, rfl⟩

theorem Reversed.postsForActor {p : PreparedReversal} {entryId user : Uuid} {closed : Bool}
    {now : Timestamp} {n : ℕ} {wn : List (Write Row)} {o rev : JournalEntry}
    (h : Reversed strict c p id now n wn o rev) (hp : PreparedReverse c entryId user closed p)
    (hposts : c.req.PostsAs .reversal) (hactor : c.req.actor = some user) :
    ∀ x ∈ [(id, rev), (p.originalId, markReversed id o)], PostsForActor c x := by
  refine List.forall_mem_cons.mpr ⟨.inr (.inr ?_), List.forall_mem_singleton.mpr (.inr (.inl
    ⟨o, h.original, h.notDraft, .reverse id h.notDraft h.live⟩))⟩
  rw [h.entry_eq, hactor, ← hp.reversedBy_eq]
  exact ⟨nofun, hposts, rfl⟩

/-- **The entries a commit writes.** -/
theorem Transacts.postsForActor (h : Transacts strict c) (hdrafts : ManualDrafts c.before) :
    ∀ x ∈ entries.writes c.writes, PostsForActor c x := by
  cases h
  case postDocument t =>
    rw [t.writes_entries]
    exact t.created.postsForActor t.prepared (by rw [t.req]; rfl) (by rw [t.req]; rfl)
  case voidDocument t =>
    rw [t.writes_entries]
    exact t.reversed.postsForActor t.prepared (by rw [t.req]; rfl) (by rw [t.req]; rfl)
  case postPayment t =>
    rw [t.writes_entries]
    exact t.created.postsForActor t.prepared (by rw [t.req]; rfl) (by rw [t.req]; rfl)
  case voidPayment t =>
    rw [t.writes_entries]
    exact t.reversed.postsForActor t.prepared (by rw [t.req]; rfl) (by rw [t.req]; rfl)
  case createEntry row valid fresh writes =>
    rw [writes, row]
    exact List.forall_mem_singleton.mpr (.inl ⟨rfl, rfl⟩)
  case createAndPostEntry req prepared created writes =>
    rw [writes, Table.writes_append, created.stamp.ticket.entries]
    exact created.postsForActor prepared (by rw [req]; rfl) (by rw [req]; rfl)
  case postEntry draft n wn req current live hdraft balanced accounts period year stamp writes =>
    rw [writes, Table.writes_append, stamp.ticket.entries]
    refine List.forall_mem_singleton.mpr (.inr (.inr ⟨nofun, ?_, by rw [req]; rfl⟩))
    rw [req]
    exact hdrafts _ draft current hdraft
  case reverseEntry req prepared reversed writes =>
    rw [writes, reversed.writes_entries]
    exact reversed.postsForActor prepared (by rw [req]; rfl) (by rw [req]; rfl)
  case deleteEntry id user now draft req current hdraft live writes =>
    rw [writes]
    exact List.forall_mem_singleton.mpr (.inl ⟨hdraft, hdrafts _ draft current hdraft⟩)
  case postOpeningBalances req prepared created writes =>
    rw [writes, Table.writes_append, created.stamp.ticket.entries]
    exact created.postsForActor prepared (by rw [req]; rfl) (by rw [req]; rfl)
  case closeYear t =>
    rw [t.writes, Table.writes_append, t.created.stamp.ticket.entries]
    exact t.created.postsForActor t.prepared (by rw [t.req]; rfl) (by rw [t.req]; rfl)
  case reopenYear t =>
    rw [t.writes_entries]
    exact t.reversed.postsForActor t.prepared (by rw [t.req]; rfl) (by rw [t.req]; rfl)
  case periods change writes =>
    rw [writes, change.writes_entries]
    exact List.forall_mem_nil _
  -- the others write no entries
  all_goals
    rename_i writes
    rw [writes]
    exact List.forall_mem_nil _

theorem Request.PostsAs.actor {r : Request} {sourceType : JournalSourceType}
    (h : r.PostsAs sourceType) : ∃ user, r.actor = some user := by
  cases r <;> first | exact ⟨_, rfl⟩ | exact h.elim

/-- A step never makes a draft of an entry. -/
theorem EntryStep.not_draft {e' : JournalEntry} (h : EntryStep e e') (hnot : e.status ≠ .draft) :
    e'.status ≠ .draft := by
  cases h with
  | refl => exact hnot
  | promote _ _ _ _ _ _ hdraft => exact absurd hdraft hnot
  | reverse => exact nofun
  | delete _ _ hdraft => exact absurd hdraft hnot

end Steps

/-! ## Runs -/

section Runs

variable {ttl : ℕ} {users₀ : Auth.Db} {db₀ : Db} {s : Auth.CallServer} {t : BooksServer}

/-- **On whose behalf the books are changed**: the call of every commit was made by a user who has been in
office, with a role that its handler requires and without a temporary password. -/
theorem authorized_of_joint (h : Operates ttl users₀ db₀ s t) {c : BooksCommit}
    (hc : c ∈ t.history) :
    Authorized users₀ s.history c.req.user c.req.request.handler.required ∧
      (∀ id ∈ c.req.request.actor, id = c.req.user.id) ∧ c.req.request.Allows c.req.user := by
  obtain ⟨users, hpast, hok, hactor, hallows⟩ := h.admitted.2 c hc
  obtain ⟨-, -, hoffice, hroles, hpending⟩ := Auth.canActivate_some.mp hok
  obtain ⟨roles, hhandler, hne, -⟩ := c.req.request.handler_eq
  refine ⟨⟨users, hpast, hoffice, hroles.resolve_left ?_, ?_⟩, hactor, hallows⟩
  · rw [hhandler]
    exact hne
  · cases hflag : c.req.user.mustChangePassword with
    | false => rfl
    | true =>
      have hallowed := hpending hflag
      rw [hhandler] at hallowed
      cases hallowed

/-- The entry was posted, by a request that posts such entries, on behalf of its actor. -/
def PostedFor (h : List Commit) (id : Uuid) (e : JournalEntry) : Prop :=
  ∃ c ∈ h, PostsNow c id ∧ c.req.PostsAs e.sourceType ∧ e.postedBy = c.req.actor

/-- In every store of a run, the drafts are manual, and what is posted was posted by such a request. -/
theorem postedFor_always {policy : Policy Row LockName Query Failure Response Request}
    {s : Server} (h₀ : Initial db₀) (h : Reachable code policy db₀ s) {db : Db}
    (hdb : Past db₀ s.history db) : ManualDrafts db ∧
      ∀ id e, Db.entry db id = some e → e.status ≠ .draft → PostedFor s.history id e := by
  refine (chain_of_reachable h).always (D := fun _ _ => True)
    (I := fun db => ManualDrafts db ∧
      ∀ id e, Db.entry db id = some e → e.status ≠ .draft → PostedFor s.history id e)
    (fun _ => trivial) (fun _ _ _ _ _ => trivial) (fun _ _ => trivial) ?_ ?_ db hdb
  · refine ⟨fun id e he => ?_, fun id e he => ?_⟩ <;>
    · rw [h₀.entry] at he
      cases he
  · rintro c hc hguar ⟨hdrafts, hposted⟩ -
    have hwrites := hguar.postsForActor hdrafts
    refine ⟨fun id e he hdraft => ?_, fun id e he hnot => ?_⟩
    · by_cases hsame : Db.entry c.before id = some e
      · exact hdrafts id e hsame hdraft
      · rw [entry_after] at he
        rcases hwrites _ (mem_of_overwrite he hsame) with
          ⟨-, hmanual⟩ | ⟨e₀, -, hnot, hstep⟩ | ⟨hnot, -⟩
        · exact hmanual
        · exact absurd hdraft (hstep.not_draft hnot)
        · exact absurd hdraft hnot
    · by_cases hold : ∃ e₀, Db.entry c.before id = some e₀ ∧ e₀.status ≠ .draft
      · -- it was posted before and keeps its source and its poster
        obtain ⟨e₀, he₀, hnot₀⟩ := hold
        obtain ⟨e', he', hstep⟩ := hguar.entry_step he₀
        obtain rfl : e' = e := Option.some.inj (he'.symm.trans he)
        obtain ⟨c', hc', hnow, hposts, hposter⟩ := hposted id e₀ he₀ hnot₀
        refine ⟨c', hc', hnow, ?_, ?_⟩
        · rw [hstep.source.1]
          exact hposts
        · rw [hstep.poster hnot₀, hposter]
      · have hbefore : ∀ e₀, Db.entry c.before id = some e₀ → e₀.status = .draft := fun e₀ he₀ => by
          by_contra hnot₀
          exact hold ⟨e₀, he₀, hnot₀⟩
        have hnow : PostsNow c id := ⟨hbefore, e, he, hnot⟩
        have hne : Db.entry c.before id ≠ some e := fun heq => hnot (hbefore e heq)
        rw [entry_after] at he
        rcases hwrites _ (mem_of_overwrite he hne) with ⟨hdraft, -⟩ | ⟨e₀, he₀, hnot₀, -⟩ | ⟨-, hposts⟩
        · exact absurd hdraft hnot
        · exact absurd ⟨e₀, he₀, hnot₀⟩ hold
        · exact ⟨c, hc, hnow, hposts⟩

/-- **Who has posted an entry.** In every reachable state of the books and of the user administration, however
their requests interleave, a posted entry names as the one who has posted it the user whose call has: he
has been in office in a store the user administration has committed, without a temporary password, as an
approver or administrator, and as an administrator if it is an opening or a closing entry. -/
theorem posted_of_joint (h₀ : Initial db₀) (h : Operates ttl users₀ db₀ s t) {id : Uuid}
    {e : JournalEntry} (he : Db.entry t.db id = some e) (hnot : e.status ≠ .draft) :
    ∃ c ∈ t.history, PostsNow (c.map BooksCall.request) id ∧ e.postedBy = some c.req.user.id ∧
      Authorized users₀ s.history c.req.user e.sourceType.posters := by
  have hrun := h.reachable₂.map BooksCall.request
  obtain ⟨-, hposted⟩ := postedFor_always h₀ hrun (chain_of_reachable hrun).past_self
  obtain ⟨c', hc', hnow, hposts, hposter⟩ := hposted id e he hnot
  obtain ⟨c, hc, rfl⟩ := List.mem_map.mp hc'
  obtain ⟨⟨users, hpast, hoffice, hrole, hpassword⟩, hactor, hallows⟩ := authorized_of_joint h hc
  obtain ⟨user, huser⟩ := hposts.actor
  refine ⟨c, hc, hnow, ?_, users, hpast, hoffice, hposts.posters hrole hallows, hpassword⟩
  rw [hposter, huser, hactor user huser]

end Runs

/-! ## A poster who is demoted meanwhile -/

namespace Sample

/-- An administrator's call to post a sale comes in. -/
def saleCall : BooksCall :=
  ⟨.createAndPostEntry cashSale 1 100 1, some ⟨some 1, "", .viewer⟩, ⟨1, "a@example.com", .admin, false⟩⟩

def arrived : BooksServer :=
  ((Server.start db).pass (fun c => code c.request) (fun _ c => AdmitsBooks Auth.Sample.db c)
    [.spawn saleCall]).getD (.start db)

/-- Another one demotes him. -/
def demotion : Auth.CallServer :=
  ((Server.start Auth.Sample.db).pass (fun c => Auth.code Auth.Sample.ttl c.request) Auth.Admits
    (.spawn (Auth.Sample.call 2 "b@example.com" .admin false
      (.updateUser 2 1 ⟨none, some .viewer, none⟩ .plain)) :: List.replicate 6 (.step 0))).getD
        (.start Auth.Sample.db)

/-- The sale is posted afterwards. -/
def saleServer : BooksServer :=
  (arrived.pass (fun c => code c.request) (fun _ c => AdmitsBooks demotion.db c)
    (List.replicate 16 (.step 0))).getD arrived

theorem operates : Operates Auth.Sample.ttl Auth.Sample.db db demotion saleServer := by
  have harrived : ((Server.start db).pass (fun c : BooksCall => code c.request)
      (fun _ c => AdmitsBooks Auth.Sample.db c) [.spawn saleCall]).isSome = true := by decide +kernel
  have hdemotion : ((Server.start Auth.Sample.db).pass
      (fun c : Auth.Call => Auth.code Auth.Sample.ttl c.request) Auth.Admits
      (.spawn (Auth.Sample.call 2 "b@example.com" .admin false
        (.updateUser 2 1 ⟨none, some .viewer, none⟩ .plain)) ::
          List.replicate 6 (.step 0))).isSome = true := by decide +kernel
  have hsale : (arrived.pass (fun c => code c.request) (fun _ c => AdmitsBooks demotion.db c)
      (List.replicate 16 (.step 0))).isSome = true := by decide +kernel
  obtain ⟨t₁, ht₁⟩ := Option.isSome_iff_exists.mp harrived
  obtain ⟨s, hs⟩ := Option.isSome_iff_exists.mp hdemotion
  obtain ⟨t, ht⟩ := Option.isSome_iff_exists.mp hsale
  have harr : arrived = t₁ := by rw [arrived, ht₁, Option.getD_some]
  have hdem : demotion = s := by rw [demotion, hs, Option.getD_some]
  have hsrv : saleServer = t := by rw [saleServer, ht, Option.getD_some]
  rw [hsrv]
  refine Joint.pass₂ (t := arrived) ?_ ht
  rw [hdem, harr]
  exact (Joint.start.pass₂ ht₁).pass hs

end Sample

/-- The poster is a viewer when the sale is posted; he was an administrator when his call came in. -/
theorem posted_of_joint_demoted :
    (Auth.Db.user Sample.demotion.db 1).map (·.role) = some .viewer ∧
    ∃ e, Db.entry Sample.saleServer.db 100 = some e ∧
      ∃ c ∈ Sample.saleServer.history, PostsNow (c.map BooksCall.request) 100 ∧
        e.postedBy = some c.req.user.id ∧
        Authorized Auth.Sample.db Sample.demotion.history c.req.user e.sourceType.posters := by
  refine ⟨by decide +kernel, ?_⟩
  have hsome : ((Db.entry Sample.saleServer.db 100).filter
      fun e => decide (e.status ≠ .draft)).isSome = true := by decide +kernel
  obtain ⟨e, he⟩ := Option.isSome_iff_exists.mp hsome
  rw [Option.filter_eq_some_iff, decide_eq_true_iff] at he
  exact ⟨e, he.1, posted_of_joint Sample.initial Sample.operates he.1 he.2⟩

end AccountingApi
