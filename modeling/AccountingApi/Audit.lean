import Mathlib.Data.List.Infix
import Mathlib.Data.List.Nodup

/-!
# The audited bodies

The body of a request is written to the audit log with the values under sensitive keys redacted. The
copy is built by assignments to the properties of a fresh object. Under the key `__proto__` such an
assignment sets the prototype of the object and leaves no property behind.

## Main definitions

* `JsValue`, `JsObject.assign`: values and the assignment to a property
* `sanitize`: the audited copy of a body
* `Agree`: two values differ under sensitive keys only
* `Sanitizes`: the copy depends on nothing sensitive and keeps everything else
* `Clean`: no object outside the sensitive keys has the key `__proto__`

## Main results

* `sanitize_eq_of_agree`: the copy does not depend on the values under sensitive keys
* `sanitizes_iff`: it keeps everything else if and only if the body is clean
-/

namespace AccountingApi.Audit

/-! ## Values -/

/-- A value that is neither an array nor an object; numbers are of the type `ν`. -/
inductive JsScalar (ν : Type)
  | null
  | bool (b : Bool)
  | num (n : ν)
  | str (s : String)
deriving DecidableEq

/-- A value: an object has a prototype, unless it is the usual one, and its own properties in their
order. -/
inductive JsValue (ν : Type)
  | scalar (s : JsScalar ν)
  | arr (items : List (JsValue ν))
  | obj (proto : Option (JsValue ν)) (props : List (String × JsValue ν))

/-- An object while it is built. -/
structure JsObject (ν : Type) where
  proto : Option (JsValue ν) := none
  props : List (String × JsValue ν) := []

variable {ν : Type}

/-- The value of an own property, set in its place or at the end. -/
def setProp (k : String) (x : JsValue ν) : List (String × JsValue ν) → List (String × JsValue ν)
  | [] => [(k, x)]
  | p :: ps => if p.1 = k then (k, x) :: ps else p :: setProp k x ps

/-- The value can be a prototype. -/
def JsValue.CanBeProto : JsValue ν → Prop
  | .scalar .null | .arr _ | .obj .. => True
  | _ => False

instance (x : JsValue ν) : Decidable x.CanBeProto := by
  unfold JsValue.CanBeProto
  split <;> infer_instance

/-- The assignment `out[k] = x` to an object with the usual prototype, which has a setter for
`__proto__`. -/
def JsObject.assign (out : JsObject ν) (k : String) (x : JsValue ν) : JsObject ν :=
  if k = "__proto__" then
    if x.CanBeProto then { out with proto := some x } else out
  else { out with props := setProp k x out.props }

/-- The words of sensitive keys. -/
def sensitiveWords : List String := ["password", "token", "secret", "authorization"]

/-- The test of a key, whatever the case of its letters. -/
def SENSITIVE (k : String) : Bool :=
  sensitiveWords.any fun word => decide (word.toList <:+: k.toList.map Char.toLower)

/-- What stands for a sensitive value. -/
def redacted : JsValue ν := .scalar (.str "[REDACTED]")

mutual

/-- The copy of a body for the audit log. -/
def sanitize : JsValue ν → JsValue ν
  | .scalar s => .scalar s
  | .arr items => .arr (sanitizeItems items)
  | .obj _ props =>
    let out := sanitizeProps props {}
    .obj out.proto out.props

def sanitizeItems : List (JsValue ν) → List (JsValue ν)
  | [] => []
  | v :: vs => sanitize v :: sanitizeItems vs

/-- The loop over the own properties of an object. -/
def sanitizeProps : List (String × JsValue ν) → JsObject ν → JsObject ν
  | [], out => out
  | (k, v) :: props, out =>
    sanitizeProps props (out.assign k (if SENSITIVE k then redacted else sanitize v))

end

mutual

/-- The values differ under sensitive keys only: they have the same scalars, arrays of the same length,
and objects with the same keys. -/
def Agree : JsValue ν → JsValue ν → Prop
  | .scalar s, .scalar s' => s = s'
  | .arr vs, .arr ws => AgreeItems vs ws
  | .obj _ ps, .obj _ qs => AgreeProps ps qs
  | _, _ => False

def AgreeItems : List (JsValue ν) → List (JsValue ν) → Prop
  | [], [] => True
  | v :: vs, w :: ws => Agree v w ∧ AgreeItems vs ws
  | _, _ => False

def AgreeProps : List (String × JsValue ν) → List (String × JsValue ν) → Prop
  | [], [] => True
  | (k, v) :: ps, (k', w) :: qs =>
    k = k' ∧ (SENSITIVE k = true ∨ Agree v w) ∧ AgreeProps ps qs
  | _, _ => False

end

/-- The second value is somewhere in the first one, prototypes included. -/
inductive Part : JsValue ν → JsValue ν → Prop
  | refl (v : JsValue ν) : Part v v
  | item {items v w} : v ∈ items → Part v w → Part (.arr items) w
  | prop {proto props k v w} : (k, v) ∈ props → Part v w → Part (.obj proto props) w
  | proto {proto props v w} : v ∈ proto → Part v w → Part (.obj proto props) w

/-- The second value is somewhere in the first one, and not under a sensitive key. -/
inductive Visible : JsValue ν → JsValue ν → Prop
  | refl (v : JsValue ν) : Visible v v
  | item {items v w} : v ∈ items → Visible v w → Visible (.arr items) w
  | prop {proto props k v w} :
    (k, v) ∈ props → SENSITIVE k = false → Visible v w → Visible (.obj proto props) w

/-- The value can come out of a parser: objects have the usual prototype and distinct keys. -/
def Parsed (v : JsValue ν) : Prop :=
  ∀ proto props, Part v (.obj proto props) → proto = none ∧ (props.map Prod.fst).Nodup

/-- The body of a request. -/
structure Body (ν : Type) where
  value : JsValue ν
  parsed : Parsed value

/-- **What the audit log promises**: the copy depends on nothing sensitive and has nothing sensitive
in it, it keeps everything else, and a copy of the copy is the same. -/
structure Sanitizes (v : JsValue ν) : Prop where
  noninterfering : ∀ w, Agree v w → sanitize v = sanitize w
  redacts : ∀ proto props, Part (sanitize v) (.obj proto props) → ∀ p ∈ props,
    SENSITIVE p.1 = true → p.2 = redacted
  complete : Agree v (sanitize v)
  idempotent : sanitize (sanitize v) = sanitize v

/-- No object outside the sensitive keys has the key `__proto__`. -/
def Clean (v : JsValue ν) : Prop :=
  ∀ proto props, Visible v (.obj proto props) → "__proto__" ∉ props.map Prod.fst

/-! ## Induction over values -/

mutual

/-- Induction over a value, through arrays and objects. -/
theorem JsValue.induct {motive : JsValue ν → Prop} (scalar : ∀ s, motive (.scalar s))
    (arr : ∀ items, (∀ v ∈ items, motive v) → motive (.arr items))
    (obj : ∀ proto props, (∀ p ∈ props, motive p.2) → motive (.obj proto props)) :
    ∀ v, motive v
  | .scalar s => scalar s
  | .arr items => arr items (JsValue.inductItems scalar arr obj items)
  | .obj proto props => obj proto props (JsValue.inductProps scalar arr obj props)

theorem JsValue.inductItems {motive : JsValue ν → Prop} (scalar : ∀ s, motive (.scalar s))
    (arr : ∀ items, (∀ v ∈ items, motive v) → motive (.arr items))
    (obj : ∀ proto props, (∀ p ∈ props, motive p.2) → motive (.obj proto props)) :
    ∀ items : List (JsValue ν), ∀ v ∈ items, motive v
  | [] => List.forall_mem_nil _
  | v :: vs => List.forall_mem_cons.mpr
    ⟨JsValue.induct scalar arr obj v, JsValue.inductItems scalar arr obj vs⟩

theorem JsValue.inductProps {motive : JsValue ν → Prop} (scalar : ∀ s, motive (.scalar s))
    (arr : ∀ items, (∀ v ∈ items, motive v) → motive (.arr items))
    (obj : ∀ proto props, (∀ p ∈ props, motive p.2) → motive (.obj proto props)) :
    ∀ props : List (String × JsValue ν), ∀ p ∈ props, motive p.2
  | [] => List.forall_mem_nil _
  | (_, v) :: ps => List.forall_mem_cons.mpr
    ⟨JsValue.induct scalar arr obj v, JsValue.inductProps scalar arr obj ps⟩

end

/-! ## What the copy depends on -/

section Noninterference

theorem sanitizeItems_eq {vs ws : List (JsValue ν)}
    (h : ∀ v ∈ vs, ∀ w, Agree v w → sanitize v = sanitize w) (hagree : AgreeItems vs ws) :
    sanitizeItems vs = sanitizeItems ws := by
  induction vs generalizing ws with
  | nil =>
    cases ws with
    | nil => rfl
    | cons w ws => exact hagree.elim
  | cons v vs ih =>
    cases ws with
    | nil => exact hagree.elim
    | cons w ws =>
      obtain ⟨hv, hvs⟩ := List.forall_mem_cons.mp h
      rw [sanitizeItems, sanitizeItems, hv w hagree.1, ih hvs hagree.2]

theorem sanitizeProps_eq {ps qs : List (String × JsValue ν)} {out : JsObject ν}
    (h : ∀ p ∈ ps, ∀ w, Agree p.2 w → sanitize p.2 = sanitize w) (hagree : AgreeProps ps qs) :
    sanitizeProps ps out = sanitizeProps qs out := by
  induction ps generalizing qs out with
  | nil =>
    cases qs with
    | nil => rfl
    | cons q qs => exact hagree.elim
  | cons p ps ih =>
    cases qs with
    | nil => exact hagree.elim
    | cons q qs =>
      obtain ⟨k, v⟩ := p
      obtain ⟨k', w⟩ := q
      obtain ⟨hp, hps⟩ := List.forall_mem_cons.mp h
      obtain ⟨rfl, hvalue, hrest⟩ := hagree
      rw [sanitizeProps, sanitizeProps, ih hps hrest]
      rcases hvalue with hsensitive | hvalue
      · rw [if_pos hsensitive, if_pos hsensitive]
      · rw [hp w hvalue]

/-- **The copy does not depend on the values under sensitive keys.** -/
theorem sanitize_eq_of_agree (v : JsValue ν) : ∀ w, Agree v w → sanitize v = sanitize w := by
  induction v using JsValue.induct with
  | scalar s =>
    intro w hagree
    cases w with
    | scalar s' => rw [show s = s' from hagree]
    | arr items => exact hagree.elim
    | obj proto props => exact hagree.elim
  | arr items ih =>
    intro w hagree
    cases w with
    | scalar s => exact hagree.elim
    | arr items' => rw [sanitize, sanitize, sanitizeItems_eq ih hagree]
    | obj proto props => exact hagree.elim
  | obj proto props ih =>
    intro w hagree
    cases w with
    | scalar s => exact hagree.elim
    | arr items => exact hagree.elim
    | obj proto' props' => rw [sanitize, sanitize, sanitizeProps_eq ih hagree]

end Noninterference

/-! ## What is in the copy -/

section Redaction

/-- Nothing but the mark is under a sensitive key. -/
def Redacts (v : JsValue ν) : Prop :=
  ∀ proto props, Part v (.obj proto props) → ∀ p ∈ props, SENSITIVE p.1 = true → p.2 = redacted

theorem redacts_scalar (s : JsScalar ν) : Redacts (.scalar s) := by
  rintro proto props ⟨⟩

theorem redacts_arr {items : List (JsValue ν)} (h : ∀ v ∈ items, Redacts v) :
    Redacts (.arr items) := by
  rintro proto props hpart
  cases hpart with
  | item hv hpart => exact h _ hv proto props hpart

/-- An object, its prototype and the values of its own properties. -/
theorem redacts_obj {proto : Option (JsValue ν)} {props : List (String × JsValue ν)}
    (hproto : ∀ v ∈ proto, Redacts v)
    (hprops : ∀ p ∈ props, Redacts p.2 ∧ (SENSITIVE p.1 = true → p.2 = redacted)) :
    Redacts (.obj proto props) := by
  rintro proto' props' hpart
  cases hpart with
  | refl => exact fun p hp => (hprops p hp).2
  | prop hp hpart => exact (hprops _ hp).1 proto' props' hpart
  | proto hv hpart => exact hproto _ hv proto' props' hpart

theorem mem_setProp {k : String} {x : JsValue ν} {props : List (String × JsValue ν)}
    {p : String × JsValue ν} (hp : p ∈ setProp k x props) : p = (k, x) ∨ p ∈ props := by
  induction props with
  | nil => exact .inl (List.mem_singleton.mp hp)
  | cons q qs ih =>
    unfold setProp at hp
    split at hp
    · exact (List.mem_cons.mp hp).imp_right fun hp => List.mem_cons_of_mem q hp
    · rcases List.mem_cons.mp hp with rfl | hp
      · exact .inr List.mem_cons_self
      · exact (ih hp).imp_right fun hp => List.mem_cons_of_mem q hp

/-- An assignment of a value that has nothing sensitive in it. -/
theorem redacts_assign {out : JsObject ν} {k : String} {x : JsValue ν}
    (hproto : ∀ v ∈ out.proto, Redacts v)
    (hprops : ∀ p ∈ out.props, Redacts p.2 ∧ (SENSITIVE p.1 = true → p.2 = redacted))
    (hx : Redacts x) (hk : SENSITIVE k = true → x = redacted) :
    (∀ v ∈ (out.assign k x).proto, Redacts v) ∧
      ∀ p ∈ (out.assign k x).props, Redacts p.2 ∧ (SENSITIVE p.1 = true → p.2 = redacted) := by
  unfold JsObject.assign
  split
  · split
    · refine ⟨?_, hprops⟩
      rintro v ⟨⟩
      exact hx
    · exact ⟨hproto, hprops⟩
  · refine ⟨hproto, fun p hp => ?_⟩
    rcases mem_setProp hp with rfl | hp
    · exact ⟨hx, hk⟩
    · exact hprops p hp

theorem redacts_sanitizeItems {vs : List (JsValue ν)} (h : ∀ v ∈ vs, Redacts (sanitize v)) :
    ∀ v ∈ sanitizeItems vs, Redacts v := by
  induction vs with
  | nil => exact List.forall_mem_nil _
  | cons v vs ih =>
    obtain ⟨hv, hvs⟩ := List.forall_mem_cons.mp h
    exact List.forall_mem_cons.mpr ⟨hv, ih hvs⟩

theorem redacts_sanitizeProps {ps : List (String × JsValue ν)} {out : JsObject ν}
    (h : ∀ p ∈ ps, Redacts (sanitize p.2)) (hproto : ∀ v ∈ out.proto, Redacts v)
    (hprops : ∀ p ∈ out.props, Redacts p.2 ∧ (SENSITIVE p.1 = true → p.2 = redacted)) :
    Redacts (.obj (sanitizeProps ps out).proto (sanitizeProps ps out).props) := by
  induction ps generalizing out with
  | nil => exact redacts_obj hproto hprops
  | cons p ps ih =>
    obtain ⟨k, v⟩ := p
    obtain ⟨hv, hps⟩ := List.forall_mem_cons.mp h
    rw [sanitizeProps]
    obtain ⟨hproto, hprops⟩ := redacts_assign (k := k)
      (x := if SENSITIVE k then redacted else sanitize v) hproto hprops (by
        split
        · exact redacts_scalar _
        · exact hv) fun hk => if_pos hk
    exact ih hps hproto hprops

/-- **Nothing sensitive is in the copy.** -/
theorem redacts_sanitize (v : JsValue ν) : Redacts (sanitize v) := by
  induction v using JsValue.induct with
  | scalar s => exact redacts_scalar s
  | arr items ih => exact redacts_arr (redacts_sanitizeItems ih)
  | obj proto props ih => exact redacts_sanitizeProps ih nofun (List.forall_mem_nil _)

end Redaction

/-! ## What the copy keeps -/

section Completeness

variable {proto : Option (JsValue ν)} {props ps : List (String × JsValue ν)}
  {items : List (JsValue ν)}

theorem Parsed.item (h : Parsed (.arr items)) : ∀ v ∈ items, Parsed v :=
  fun _ hv proto props hpart => h proto props (.item hv hpart)

theorem Parsed.prop (h : Parsed (.obj proto props)) : ∀ p ∈ props, Parsed p.2 :=
  fun _ hp proto props hpart => h proto props (.prop hp hpart)

theorem clean_scalar (s : JsScalar ν) : Clean (.scalar s) := by
  rintro proto props ⟨⟩

theorem clean_arr_iff : Clean (.arr items) ↔ ∀ v ∈ items, Clean v := by
  constructor
  · exact fun h v hv proto props hvisible => h proto props (.item hv hvisible)
  · intro h proto props hvisible
    cases hvisible with
    | item hv hvisible => exact h _ hv proto props hvisible

theorem clean_obj_iff : Clean (.obj proto props) ↔
    "__proto__" ∉ props.map Prod.fst ∧ ∀ p ∈ props, SENSITIVE p.1 = false → Clean p.2 := by
  constructor
  · exact fun h => ⟨h proto props (.refl _), fun p hp hk proto props hvisible =>
      h proto props (.prop hp hk hvisible)⟩
  · rintro ⟨hkeys, hprops⟩ proto' props' hvisible
    cases hvisible with
    | refl => exact hkeys
    | prop hp hk hvisible => exact hprops _ hp hk proto' props' hvisible

/-- A new property goes to the end. -/
theorem setProp_of_notMem {k : String} {x : JsValue ν} (h : k ∉ props.map Prod.fst) :
    setProp k x props = props ++ [(k, x)] := by
  induction props with
  | nil => rfl
  | cons p props ih =>
    rw [List.map_cons, List.mem_cons, not_or] at h
    rw [setProp, if_neg (Ne.symm h.1), ih h.2, List.cons_append]

/-- What the loop writes for a property. -/
def copyProp (p : String × JsValue ν) : String × JsValue ν :=
  (p.1, if SENSITIVE p.1 then redacted else sanitize p.2)

/-- The properties of the copy: those of the original but `__proto__`. -/
theorem props_sanitizeProps {o : JsObject ν} (hps : (ps.map Prod.fst).Nodup)
    (hout : ∀ p ∈ ps, p.1 ∉ o.props.map Prod.fst) :
    (sanitizeProps ps o).props =
      o.props ++ (ps.filter fun p => p.1 ≠ "__proto__").map copyProp := by
  induction ps generalizing o with
  | nil => simp [sanitizeProps]
  | cons p ps ih =>
    obtain ⟨k, v⟩ := p
    obtain ⟨hk, hps⟩ := List.nodup_cons.mp hps
    obtain ⟨hkout, hout⟩ := List.forall_mem_cons.mp hout
    rw [sanitizeProps]
    by_cases hproto : k = "__proto__"
    · have hassign : ∀ x : JsValue ν, (o.assign k x).props = o.props := fun x => by
        rw [JsObject.assign, if_pos hproto]
        split <;> rfl
      rw [ih hps fun p hp => by rw [hassign]; exact hout p hp, hassign,
        List.filter_cons_of_neg (by simpa using hproto)]
    · have hassign : ∀ x : JsValue ν, (o.assign k x).props = o.props ++ [(k, x)] := fun x => by
        rw [JsObject.assign, if_neg hproto]
        exact setProp_of_notMem hkout
      rw [ih hps fun p hp => ?_, hassign, List.filter_cons_of_pos (by simpa using hproto),
        List.map_cons, List.append_assoc]
      · rfl
      · -- the keys are distinct, so none of the others is the new one
        rw [hassign, List.map_append, List.mem_append, not_or]
        refine ⟨hout p hp, fun hkey => hk ?_⟩
        rw [← List.mem_singleton.mp hkey]
        exact List.mem_map_of_mem hp

theorem AgreeProps.length_eq {qs : List (String × JsValue ν)} (h : AgreeProps ps qs) :
    ps.length = qs.length := by
  induction ps generalizing qs with
  | nil =>
    cases qs with
    | nil => rfl
    | cons q qs => exact h.elim
  | cons p ps ih =>
    cases qs with
    | nil => exact h.elim
    | cons q qs => rw [List.length_cons, List.length_cons, ih h.2.2]

/-- All properties are kept where each value is. -/
theorem agreeProps_map_iff : AgreeProps ps (ps.map copyProp) ↔
    ∀ p ∈ ps, SENSITIVE p.1 = true ∨ Agree p.2 (sanitize p.2) := by
  induction ps with
  | nil => simp [AgreeProps]
  | cons p ps ih =>
    obtain ⟨k, v⟩ := p
    have hvalue : (SENSITIVE k = true ∨ Agree v (if SENSITIVE k then redacted else sanitize v)) ↔
        SENSITIVE k = true ∨ Agree v (sanitize v) :=
      or_congr_right' fun hk => by rw [if_neg hk]
    rw [List.map_cons, List.forall_mem_cons, ← ih, ← hvalue]
    exact and_iff_right rfl

theorem agreeItems_iff :
    AgreeItems items (sanitizeItems items) ↔ ∀ v ∈ items, Agree v (sanitize v) := by
  induction items with
  | nil => simp [AgreeItems, sanitizeItems]
  | cons v vs ih => rw [List.forall_mem_cons, ← ih]; rfl

/-- An object keeps its properties unless one of them is `__proto__`. -/
theorem agree_obj_iff (hkeys : (props.map Prod.fst).Nodup) :
    Agree (.obj proto props) (sanitize (.obj proto props)) ↔
      "__proto__" ∉ props.map Prod.fst ∧
        ∀ p ∈ props, SENSITIVE p.1 = true ∨ Agree p.2 (sanitize p.2) := by
  have hcopy := props_sanitizeProps (o := {}) hkeys fun _ _ => List.not_mem_nil
  change AgreeProps props (sanitizeProps props {}).props ↔ _
  rw [hcopy, List.nil_append]
  by_cases hproto : "__proto__" ∈ props.map Prod.fst
  · refine iff_of_false (fun h => ?_) fun h => h.1 hproto
    -- a property is missing
    obtain ⟨p, hp, hk⟩ := List.mem_map.mp hproto
    have hlt : (props.filter fun p => p.1 ≠ "__proto__").length < props.length :=
      List.length_filter_lt_length_iff_exists.mpr ⟨p, hp, by simp [hk]⟩
    rw [h.length_eq, List.length_map] at hlt
    exact Nat.lt_irrefl _ hlt
  · have hall : (props.filter fun p => p.1 ≠ "__proto__") = props :=
      List.filter_eq_self.mpr fun p hp => decide_eq_true fun hk =>
        hproto (hk ▸ List.mem_map_of_mem hp)
    rw [hall, agreeProps_map_iff]
    exact (and_iff_right hproto).symm

/-- **The copy keeps everything that is not sensitive** if and only if the body is clean. -/
theorem agree_sanitize_iff (v : JsValue ν) : Parsed v → (Agree v (sanitize v) ↔ Clean v) := by
  induction v using JsValue.induct with
  | scalar s => exact fun _ => iff_of_true rfl (clean_scalar s)
  | arr items ih =>
    intro hparsed
    rw [clean_arr_iff, sanitize]
    exact agreeItems_iff.trans (forall₂_congr fun v hv => ih v hv (hparsed.item v hv))
  | obj proto props ih =>
    intro hparsed
    rw [agree_obj_iff (hparsed proto props (.refl _)).2, clean_obj_iff]
    refine and_congr_right fun _ => forall₂_congr fun p hp => ?_
    rw [ih p hp (hparsed.prop p hp), ← Bool.not_eq_true]
    exact or_iff_not_imp_left

end Completeness

/-- **The audited copy keeps its promise** exactly where no object outside the sensitive keys has the
key `__proto__`. -/
theorem sanitizes_iff (body : Body ν) : Sanitizes body.value ↔ Clean body.value := by
  rw [← agree_sanitize_iff body.value body.parsed]
  refine ⟨Sanitizes.complete, fun h => ⟨sanitize_eq_of_agree body.value, redacts_sanitize body.value,
    h, ?_⟩⟩
  exact (sanitize_eq_of_agree body.value _ h).symm

/-- An object with one property, a number. -/
theorem parsed_obj_num (k : String) (n : ν) : Parsed (.obj none [(k, .scalar (.num n))]) := by
  intro proto props hpart
  cases hpart with
  | refl => exact ⟨rfl, List.nodup_singleton k⟩
  | prop hp hpart =>
    cases List.mem_singleton.mp hp
    cases hpart
  | proto hp => cases hp

/-- **A property is lost**: the body is an object whose only key is `__proto__`. -/
theorem not_sanitizes_proto : ¬ ∀ body : Body ℕ, Sanitizes body.value := by
  intro h
  have hparsed := parsed_obj_num (ν := ℕ) "__proto__" 1
  have hclean := (agree_sanitize_iff _ hparsed).mp (h ⟨_, hparsed⟩).complete
  exact hclean _ _ (.refl _) List.mem_cons_self

end AccountingApi.Audit
