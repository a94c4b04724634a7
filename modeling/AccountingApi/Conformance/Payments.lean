import AccountingApi.Conformance.Documents

/-!
# Payments keep the protocol

One theorem for each request on a payment. The allocations are applied in a loop, each under the lock
of its document and on top of the ones before it.
-/

namespace AccountingApi

open ReadCommitted Posting Payments

section Reads

variable {P : Protocol Row LockName Query Request} {r : Request} {ℓ : Tx}

theorem wp_loadTarget {t : PaymentTarget} {a : PaymentAllocation} {post : Uuid × Document → Tx → Prop}
    (hnew : ℓ.published = false) (hbuf : ℓ.buf = [])
    (h : ∀ id doc ℓ', t.allocId a ≠ none ∧ t.otherId a = none →
      ℓ.Ran P r ℓ' [] (fun _ => True) → post (id, doc) ℓ') :
    (loadTarget t a).wp P r ℓ post := by
  refine Prog.wp_bind.mpr (Prog.wp_orThrow hnew fun id hid => ?_)
  refine Prog.wp_bind.mpr (Prog.wp_ensure hnew fun hother => ?_)
  refine Prog.wp_bind.mpr (wp_read hnew hbuf fun s ℓ₁ h₁ => ?_)
  refine Prog.wp_bind.mpr (Prog.wp_orThrow h₁.new fun doc _ => ?_)
  exact h id doc ℓ₁ ⟨by simp [hid], hother⟩ (h₁.mono fun _ _ => trivial)

/-- The total of the allocations that pass the checks of a draft. -/
theorem wp_checkAllocations {t : PaymentTarget} {partnerId : Uuid} {as : List PaymentAllocation}
    {allocated : Uuid → ℤ} {total : ℤ} {post : ℤ → Tx → Prop} (hnew : ℓ.published = false)
    (hbuf : ℓ.buf = [])
    (h : ∀ ℓ', (∀ a ∈ as, t.allocId a ≠ none ∧ t.otherId a = none) →
      ℓ.Ran P r ℓ' [] (fun _ => True) → post ((as.map (·.amount)).foldl Money.add total) ℓ') :
    (checkAllocations t partnerId allocated total as).wp P r ℓ post := by
  induction as generalizing ℓ allocated total with
  | nil => exact h ℓ (fun _ ha => absurd ha List.not_mem_nil) (.refl hnew)
  | cons a as ih =>
    refine Prog.wp_bind.mpr (Prog.wp_ensure hnew fun _ => ?_)
    refine Prog.wp_bind.mpr (wp_loadTarget hnew hbuf fun id doc ℓ₁ htarget h₁ => ?_)
    refine Prog.wp_bind.mpr (Prog.wp_ensure h₁.new fun _ => ?_)
    refine Prog.wp_bind.mpr (Prog.wp_ensure h₁.new fun _ => ?_)
    refine Prog.wp_bind.mpr (Prog.wp_ensure h₁.new fun _ => ?_)
    refine ih h₁.new (buf_of_ran h₁ hbuf) fun ℓ₂ htargets h₂ => h ℓ₂ ?_ ?_
    · exact List.forall_mem_cons.mpr ⟨htarget, htargets⟩
    · exact (h₁.trans h₂).mono fun _ _ => trivial

/-- The payment, its allocations in the order of the scan. -/
theorem wp_getPayment {id : Uuid} {scan : ScanOrder PaymentAllocation} {post : Payment → Tx → Prop}
    (hnew : ℓ.published = false) (hbuf : ℓ.buf = [])
    (h : ∀ s p ℓ', Db.livePayment s id = some p →
      ℓ.Ran P r ℓ' [] (fun c => Drift P none s c.before) → post (Payments.scanned scan p) ℓ') :
    (Payments.getById id scan).wp P r ℓ post :=
  Prog.wp_bind.mpr (wp_read hnew hbuf fun s ℓ₁ h₁ =>
    Prog.wp_bind.mpr (Prog.wp_orThrow h₁.new fun p hp =>
      h s p ℓ₁ hp (h₁.mono fun _ hc => hc.2)))

end Reads

/-- The answer of a request that has committed finds the payment. -/
theorem wp_getPayment_published {strict : Prop} {r : Request} {ℓ : Tx} {db : Db} {id : Uuid}
    {scan : ScanOrder PaymentAllocation} {p : Payment} (hp : Db.payment (ℓ.view db) id = some p)
    (hnot : p.status ≠ .draft) (hlive : p.deletedAt = none) :
    (Payments.getById id scan).wp (protocol strict) r (ℓ.publish db) fun _ _ => True := by
  refine Prog.wp_bind.mpr fun db' hs => ?_
  obtain ⟨p', hp', hsteps⟩ := payment_of_drift (hs _ List.mem_cons_self) hp
  obtain ⟨-, hlive'⟩ := live_of_paymentSteps hsteps hnot hlive
  have hfound : Db.livePayment ((ℓ.publish db).view db') id = some p' := by
    change (Db.payment db' id).filter _ = _
    rw [hp', Option.filter_some, hlive']
    rfl
  refine Prog.wp_bind.mpr ?_
  rw [hfound]
  trivial

/-! ## Allocations -/

section Allocations

variable {P : Protocol Row LockName Query Request} {r : Request} {ℓ : Tx}

/-- A document seen under its lock is the one an update of it finds. -/
theorem wp_updateLocked {kind : DocumentKind} {id : Uuid} {f : Document → Document} {d : Document}
    {ℓ₀ : Tx} {s : Db} {post : Document → Tx → Prop} (h₀ : ℓ₀.Ran P r ℓ [] (fun c =>
      (c.before.putAll ℓ₀.buf).row (.document kind id) = s.row (.document kind id)))
    (hd : Db.liveDocument s kind id = some d)
    (h : ∀ v ℓ', (f v).Valid → ℓ₀.Ran P r ℓ' [⟨.document kind id, f v⟩] (fun c =>
      Db.document (c.before.putAll ℓ₀.buf) kind id = some v ∧ v.deletedAt = none ∧ v = d) →
      post (f v) ℓ') :
    (updateDocument kind id f).wp P r ℓ post := by
  refine wp_updateRow h₀.new fun v ℓ' hlive hvalid h₁ => h v ℓ' hvalid ((h₀.trans h₁).mono ?_)
  rintro c ⟨hrow, hv⟩
  obtain ⟨hd, -⟩ := Option.filter_eq_some_iff.mp hd
  rw [h₀.buf, List.append_nil] at hv
  rw [hv, ← Db.document_eq_row, hd] at hrow
  exact ⟨(Db.document_eq_row _ _ _).trans hv, hlive, Option.some.inj hrow⟩

/-- One allocation settled. -/
theorem wp_settleInTx {t : PaymentTarget} {partnerId : Uuid} {a : PaymentAllocation}
    {post : Unit → Tx → Prop} (hnew : ℓ.published = false)
    (h : ∀ id d ℓ', a.idOf t.kind = some id →
      ℓ.Ran P r ℓ' [⟨.document t.kind id, applyPaid a.amount d⟩] (fun c =>
        Db.document (c.before.putAll ℓ.buf) t.kind id = some d ∧ d.deletedAt = none ∧
          CanSettle partnerId a d) → post () ℓ') :
    (settleInTx t partnerId a).wp P r ℓ post := by
  refine Prog.wp_bind.mpr (Prog.wp_orThrow hnew fun id hid => ?_)
  refine Prog.wp_bind.mpr (wp_forUpdate hnew fun s ℓ₁ h₁ => ?_)
  refine Prog.wp_bind.mpr (Prog.wp_orThrow h₁.new fun d hd => ?_)
  refine Prog.wp_bind.mpr (Prog.wp_ensure h₁.new fun hposted => ?_)
  refine Prog.wp_bind.mpr (Prog.wp_ensure h₁.new fun hpartner => ?_)
  refine Prog.wp_bind.mpr (Prog.wp_ensure h₁.new fun hexceeds => ?_)
  refine Prog.wp_bind.mpr (wp_updateLocked h₁ hd fun v ℓ₂ hvalid h₂ => h id v ℓ₂ hid (h₂.mono ?_))
  rintro c ⟨hv, hlive, rfl⟩
  exact ⟨hv, hlive, hposted, hpartner, hexceeds, hvalid⟩

/-- One allocation taken back. -/
theorem wp_unwindInTx {t : PaymentTarget} {a : PaymentAllocation} {post : Unit → Tx → Prop}
    (hnew : ℓ.published = false)
    (h : ∀ id d ℓ', a.idOf t.kind = some id →
      ℓ.Ran P r ℓ' [⟨.document t.kind id, applyPaid (-a.amount) d⟩] (fun c =>
        Db.document (c.before.putAll ℓ.buf) t.kind id = some d ∧ d.deletedAt = none ∧
          CanUnwind a d) → post () ℓ') :
    (unwindInTx t a).wp P r ℓ post := by
  refine Prog.wp_bind.mpr (Prog.wp_orThrow hnew fun id hid => ?_)
  refine Prog.wp_bind.mpr (wp_forUpdate hnew fun s ℓ₁ h₁ => ?_)
  refine Prog.wp_bind.mpr (Prog.wp_orThrow h₁.new fun d hd => ?_)
  refine Prog.wp_bind.mpr (Prog.wp_ensure h₁.new fun hnegative => ?_)
  refine Prog.wp_bind.mpr (wp_updateLocked h₁ hd fun v ℓ₂ hvalid h₂ => h id v ℓ₂ hid (h₂.mono ?_))
  rintro c ⟨hv, hlive, rfl⟩
  exact ⟨hv, hlive, hnegative⟩

/-- **The loop over the allocations.** Each finds its document as the ones before it left it. -/
theorem wp_forEach_applies {kind : DocumentKind} {ok : PaymentAllocation → Document → Prop}
    (delta : PaymentAllocation → ℤ) {f : PaymentAllocation → Program Unit}
    (hstep : ∀ (a : PaymentAllocation) (ℓ : Tx) (post : Unit → Tx → Prop), ℓ.published = false →
      (∀ id d ℓ', a.idOf kind = some id →
        ℓ.Ran P r ℓ' [⟨.document kind id, applyPaid (delta a) d⟩] (fun c =>
          Db.document (c.before.putAll ℓ.buf) kind id = some d ∧ d.deletedAt = none ∧ ok a d) →
        post () ℓ') → (f a).wp P r ℓ post)
    {as : List PaymentAllocation} {post : Unit → Tx → Prop} (hnew : ℓ.published = false)
    (h : ∀ ws ℓ', (∀ w ∈ ws, ∃ id, w.1 = .document kind id) →
      ℓ.Ran P r ℓ' ws (fun c => Applies kind ok delta (c.before.putAll ℓ.buf) as ws) →
      post () ℓ') :
    (Prog.forEach as f).wp P r ℓ post := by
  induction as generalizing ℓ with
  | nil =>
    exact h [] ℓ (fun _ hw => absurd hw List.not_mem_nil) ((Local.Ran.refl hnew).mono fun _ _ => .nil _)
  | cons a as ih =>
    refine Prog.wp_bind.mpr (hstep a ℓ _ hnew fun id d ℓ₁ hid h₁ => ?_)
    refine ih h₁.new fun ws ℓ₂ hws h₂ =>
      h (⟨.document kind id, applyPaid (delta a) d⟩ :: ws) ℓ₂ ?_ ((h₁.trans h₂).mono ?_)
    · exact List.forall_mem_cons.mpr ⟨⟨id, rfl⟩, hws⟩
    · rintro c ⟨⟨hd, hlive, hok⟩, hrest⟩
      rw [h₁.buf, Store.putAll_append, Store.putAll_cons, Store.putAll_nil] at hrest
      exact .cons id d hid hd hlive hok hrest

end Allocations

section Requests

variable {strict : Prop}

theorem createPayment_wp (dto : CreatePaymentDto) (user id : Uuid) :
    (code (.createPayment dto user id)).wp (protocol strict) (.createPayment dto user id) {}
      fun _ _ => True := by
  refine wp_respond (Prog.wp_bind.mpr (Prog.wp_ensure rfl fun _ => ?_))
  refine Prog.wp_bind.mpr (wp_findPartner rfl rfl fun partner ℓ₁ h₁ => ?_)
  refine Prog.wp_bind.mpr (Prog.wp_ensure h₁.new fun _ => ?_)
  refine Prog.wp_bind.mpr (Prog.wp_ensure h₁.new fun _ => ?_)
  have b₁ := buf_of_ran h₁ rfl
  refine Prog.wp_bind.mpr (wp_read h₁.new b₁ fun s ℓ₂ h₂ => ?_)
  refine Prog.wp_bind.mpr (Prog.wp_ensure h₂.new fun _ => ?_)
  have b₂ := buf_of_ran h₂ b₁
  refine Prog.wp_bind.mpr (wp_checkAllocations h₂.new b₂ fun ℓ₃ htargets h₃ => ?_)
  have b₃ := buf_of_ran h₃ b₂
  refine Prog.wp_bind.mpr (wp_transaction ?_)
  refine wp_insert h₃.new fun ℓ₄ hvalid h₄ db hs => ⟨?_, trivial⟩
  refine Local.Ran.guar h₄ b₃ hs fun c hreq hwrites hfresh => ?_
  rw [b₃, Store.putAll_nil, ← Db.payment_eq_row] at hfresh
  exact .createPayment dto user id _ hreq rfl hvalid htargets hfresh hwrites

theorem deletePayment_wp (id user : Uuid) (now : Timestamp) :
    (code (.deletePayment id user now)).wp (protocol strict) (.deletePayment id user now) {}
      fun _ _ => True := by
  refine wp_respond (wp_softDeleteDraft fun c p hreq hwrites hrow hdraft => ?_)
  exact .deletePayment id user now p hreq ((Db.payment_eq_row _ _).trans hrow) hdraft.1 hdraft.2
    hwrites

/-- The payment is validated on a plain read; under its lock it still is a draft, so it has not
changed. -/
theorem postPayment_wp (id user entryId : Uuid) (now : Timestamp)
    (scan answer : ScanOrder PaymentAllocation) :
    (code (.postPayment id user entryId now scan answer)).wp (protocol strict)
      (.postPayment id user entryId now scan answer) {} fun _ _ => True := by
  refine wp_respond (Prog.wp_bind.mpr (wp_getPayment rfl rfl fun s₁ pay ℓ₁ hpay h₁ => ?_))
  refine Prog.wp_bind.mpr (Prog.wp_ensure h₁.new fun _ => ?_)
  have b₁ := buf_of_ran h₁ rfl
  refine Prog.wp_bind.mpr (wp_findControlAccountId h₁.new b₁ fun controlId ℓ₂ h₂ => ?_)
  have b₂ := buf_of_ran h₂ b₁
  refine Prog.wp_bind.mpr (wp_preparePosting h₂.new b₂ fun p ℓ₃ h₃ => ?_)
  have b₃ := buf_of_ran h₃ b₂
  refine Prog.wp_bind.mpr (wp_transaction ?_)
  refine Prog.wp_bind.mpr (wp_forUpdate h₃.new fun s₄ ℓ₄ h₄ => ?_)
  refine Prog.wp_bind.mpr (Prog.wp_ensure h₄.new fun hlocked => ?_)
  have b₄ := buf_of_ran h₄ b₃
  refine Prog.wp_bind.mpr (wp_forEach_applies (fun a => a.amount)
    (fun _ _ _ hnew h => wp_settleInTx hnew h) h₄.new fun wd ℓ₅ hwd h₅ => ?_)
  have hstamp₅ : BeforeStamp ℓ₅ := (BeforeStamp.of_buf b₄).ran h₅ fun w hw => by
    obtain ⟨x, hx⟩ := hwd w hw
    rw [hx]
    exact trivial
  have hfree₅ : ∀ s, ℓ₅.Untouched (.sequence s) := fun s => by
    refine (Local.Untouched.of_buf b₄ _).ran h₅ fun w hw => ?_
    obtain ⟨x, hx⟩ := hwd w hw
    rw [hx]
    exact nofun
  refine Prog.wp_bind.mpr (wp_nextSequenceNumber h₅.new (hfree₅ _) fun n wn ℓ₆ hwn h₆ => ?_)
  have hstamp₆ : BeforeStamp ℓ₆ := hstamp₅.ran h₆ fun w hw => by rw [hwn w hw]; exact trivial
  refine Prog.wp_bind.mpr
    (wp_createPostedEntryInTx h₆.new hstamp₆ fun m wm entry ℓ₇ hwm h₇ => ?_)
  refine Prog.wp_bind.mpr (wp_updateRow h₇.new fun v ℓ₈ hlive _ h₈ db hs => ⟨?_, ?_⟩)
  · have hran := h₁.trans (h₂.trans (h₃.trans (h₄.trans (h₅.trans (h₆.trans (h₇.trans h₈))))))
    refine Local.Ran.guar hran rfl hs fun c hreq hwrites hc => ?_
    obtain ⟨hdrift, hcontrol, hprepared, hrow, hsettled, hticket, hcreated, hv⟩ := hc
    have hfree : ℓ₇.Untouched (.payment id) := by
      refine (((Local.Untouched.of_buf b₄ _).ran h₅ fun w hw => ?_).ran h₆ fun w hw => ?_).ran h₇
        fun w hw => ?_
      · obtain ⟨x, hx⟩ := hwd w hw
        rw [hx]
        exact nofun
      · rw [hwn w hw]
        exact nofun
      · rcases List.mem_append.mp hw with hw | hw
        · rw [hwm w hw]
          exact nofun
        · rw [List.mem_singleton.mp hw]
          exact nofun
    have hcurrent : Db.payment c.before id = some v :=
      ((Db.payment_eq_row _ _).trans (hfree.row_view c.before).symm).trans hv
    obtain ⟨p', hp', hdraft⟩ := hlocked
    obtain ⟨hp', -⟩ := Option.filter_eq_some_iff.mp hp'
    rw [b₃, Store.putAll_nil, ← Db.payment_eq_row, ← Db.payment_eq_row, hcurrent, hp'] at hrow
    cases hrow
    obtain ⟨hpay, -⟩ := Option.filter_eq_some_iff.mp hpay
    obtain ⟨p', hp', hsteps⟩ := payment_of_drift hdrift hpay
    obtain rfl : v = p' := Option.some.inj (hcurrent ▸ hp')
    obtain rfl := eq_of_paymentSteps hsteps hdraft hlive
    rw [b₄, Store.putAll_nil] at hsettled
    exact .postPayment ⟨id, user, entryId, controlId, now, scan, answer, v, p, n, m, wd, wn, wm, entry,
      hreq, hcontrol, hprepared, hcurrent, hlive, hdraft, hsettled, hticket, hcreated,
      by simpa using hwrites⟩
  · exact wp_getPayment_published ((Db.payment_eq_row _ _).trans (h₈.row_view db)) nofun hlive

/-- The locked payment is posted still, so it is the one the request has read. -/
theorem voidPayment_wp (id user entryId : Uuid) (now : Timestamp)
    (scan answer : ScanOrder PaymentAllocation) :
    (code (.voidPayment id user entryId now scan answer)).wp (protocol strict)
      (.voidPayment id user entryId now scan answer) {} fun _ _ => True := by
  refine wp_respond (Prog.wp_bind.mpr (wp_getPayment rfl rfl fun s₁ pay ℓ₁ hpay h₁ => ?_))
  refine Prog.wp_bind.mpr (Prog.wp_ensure h₁.new fun hposted => ?_)
  refine Prog.wp_bind.mpr (Prog.wp_orThrow h₁.new fun journalEntryId hentry => ?_)
  have b₁ := buf_of_ran h₁ rfl
  refine Prog.wp_bind.mpr (Prog.wp_bind.mpr (wp_prepareReversal h₁.new b₁ fun p ℓ₂ h₂ => ?_))
  have b₂ := buf_of_ran h₂ b₁
  refine Prog.wp_mapThrow.mpr (wp_transaction ?_)
  refine Prog.wp_bind.mpr (Prog.wp_bind.mpr (wp_forUpdate h₂.new fun s₃ ℓ₃ h₃ => ?_))
  have b₃ := buf_of_ran h₃ b₂
  refine Prog.wp_bind.mpr (Prog.wp_orThrow h₃.new fun pay' hpay' => ?_)
  refine Prog.wp_bind.mpr (Prog.wp_ensure h₃.new fun hlocked => ?_)
  refine Prog.wp_bind.mpr (Prog.wp_bind.mpr (wp_forEach_applies (fun a => -a.amount)
    (fun _ _ _ hnew h => wp_unwindInTx hnew h) h₃.new fun wd ℓ₄ hwd h₄ => ?_))
  have hstamp₄ : BeforeStamp ℓ₄ := (BeforeStamp.of_buf b₃).ran h₄ fun w hw => by
    obtain ⟨x, hx⟩ := hwd w hw
    rw [hx]
    exact trivial
  refine Prog.wp_bind.mpr (wp_updateRow h₄.new fun v ℓ₅ hlive _ h₅ => ?_)
  have hstamp₅ : BeforeStamp ℓ₅ := hstamp₄.ran h₅ (by simp [Key.BeforeStamp])
  refine Prog.wp_bind.mpr
    (wp_reverseInTx h₅.new hstamp₅ fun n wn o rev ℓ₆ hwn h₆ db hs => ⟨?_, ?_⟩)
  · have hran := h₁.trans (h₂.trans (h₃.trans (h₄.trans (h₅.trans h₆))))
    refine Local.Ran.guar hran rfl hs fun c hreq hwrites hc => ?_
    obtain ⟨hdrift, ⟨hprepared, hstill⟩, hrow, hunwound, hv, hreversed⟩ := hc
    have hfree : ℓ₄.Untouched (.payment id) := by
      refine (Local.Untouched.of_buf b₃ _).ran h₄ fun w hw => ?_
      obtain ⟨x, hx⟩ := hwd w hw
      simp [hx]
    have hcurrent : Db.payment c.before id = some v :=
      ((Db.payment_eq_row _ _).trans (hfree.row_view c.before).symm).trans hv
    obtain ⟨hpay', -⟩ := Option.filter_eq_some_iff.mp hpay'
    rw [b₂, Store.putAll_nil, ← Db.payment_eq_row, ← Db.payment_eq_row, hcurrent, hpay'] at hrow
    obtain rfl : v = pay' := Option.some.inj hrow
    obtain ⟨hpay, -⟩ := Option.filter_eq_some_iff.mp hpay
    obtain ⟨p', hp', hsteps⟩ := payment_of_drift hdrift hpay
    obtain rfl : v = p' := Option.some.inj (hcurrent ▸ hp')
    have hsame : v = pay := (eq_or_void_of_paymentSteps hsteps hposted).resolve_right fun hvoid => by
      rw [hlocked] at hvoid
      cases hvoid
    subst hsame
    rw [b₃, Store.putAll_nil] at hunwound
    exact .voidPayment ⟨id, user, entryId, journalEntryId, now, scan, answer, v, p, n, wd, wn, o, rev,
      hreq, hprepared, hcurrent, hlive, hlocked, hentry, hunwound, hreversed hstill, by simpa using hwrites⟩
  · have hvoid : (Payments.markVoid v).status ≠ .draft := by simp [Payments.markVoid]
    refine wp_getPayment_published ?_ hvoid hlive
    have hfree : ∀ w ∈ reversalWrites p entryId wn o rev, w.1 ≠ .payment id := by
      intro w hw
      rcases List.mem_append.mp hw with hw | hw
      · simp [hwn w hw]
      · simp only [List.mem_cons, List.not_mem_nil, or_false] at hw
        rcases hw with rfl | rfl <;> simp
    rw [Db.payment_eq_row, Local.view, h₆.buf, Store.putAll_append,
      Store.row_putAll_of_notMem _ hfree]
    exact h₅.row_view db

end Requests

end AccountingApi
