import P0ker.Registration.Basic

/-!
# Is the profile the one that was registered?

A registration asks about a name, creates an account for an e-mail, and writes a profile. The three
are answers apart, and each re-reads the form: `form.save()` when the query is answered, `_email`
and `_username` when the account is created. `coherent_of_steady` states what is left of "one
registration, one coherent profile" when nothing that re-reads the form falls into a gap with other
texts; `not_coherent` edits the name between the press and the answer.
-/

namespace P0ker.Registration

open Async Login

variable {ι : Type} [DecidableEq ι]

/-- The step from `c` to `c'` by `a` is coherent: if it handles the success of a `createUser` for
the e-mail `e` after a query about the name `n`, what it issues is exactly the profile of `e` and
`n` under the new uid; and if it handles the answer of a query, it issues no `signIn`. -/
def Coherent (c : LoginConfig ι) (a : LoginAction ι) (c' : LoginConfig ι) : Prop :=
  ∀ k m r, a = .deliver k () → c.answers[k]? = some (m, r) →
    (∀ e p n uid, m.call = ⟨.createUser, .createUser (some e) (some p)⟩ → asked m.cause = some n →
      r = .uid uid → c'.issued = c.issued ++ [⟨m.client,
        ⟨.saveUserData, .setData ["users", uid]
          [("uid", .str uid), ("email", .str e), ("brukernavn", .str n)]⟩,
        (m.call, r) :: m.cause⟩]) ∧
    (m.call.cont = .checkUsername →
      ∃ out, c'.issued = c.issued ++ out ∧ ∀ m' ∈ out, m'.call.cont ≠ .signIn)

/-! ## Accounts in the making -/

/-- The e-mail and the name of a registration whose `createUser` has been issued. -/
def registration (m : LoginMessage ι) : Option (String × String) :=
  match m.call, asked m.cause with
  | ⟨.createUser, .createUser (some e) _⟩, some n => some (e, n)
  | _, _ => none

def pendingCall (i : ι) (m : LoginMessage ι) : Option (String × String) :=
  if m.client = i then registration m else none

def pendingAnswer (i : ι) (p : LoginMessage ι × Answer) : Option (String × String) :=
  if p.2.uid?.isSome then pendingCall i p.1 else none

/-- The registrations of form `i` between the issue of `createUser` and the handling of its
success. -/
def pending (c : LoginConfig ι) (i : ι) : List (String × String) :=
  c.calls.filterMap (pendingCall i) ++ c.answers.filterMap (pendingAnswer i)

/-- A step that re-reads the form finds in it what the registrations in flight were started with:
a press finds the names of the accounts in the making; a login finds their e-mails; and the answer
that finds a name free finds the form still in register mode, with that name, and with the e-mail
and the name of every account in the making. -/
def Steady (c : LoginConfig ι) : LoginAction ι → Prop
  | .event i e =>
      (e = .pressRegister →
        ∀ r ∈ pending c i, r.2 = normalise (c.clients i).usernameText) ∧
      (e = .pressLogin → formErrors (c.clients i) = [] →
        ∀ r ∈ pending c i, r.1 = normalise (c.clients i).emailText)
  | .serve _ _ => True
  | .deliver k _ => ∀ p ∈ c.answers[k]?, ∀ n ∈ asked [(p.1.call, p.2)],
      (c.clients p.1.client).mounted = true → formErrors (c.clients p.1.client) = [] →
        (c.clients p.1.client).formType = .register ∧
        normalise (c.clients p.1.client).usernameText = n ∧
        ∀ r ∈ pending c p.1.client, r = (normalise (c.clients p.1.client).emailText, n)

instance (c : LoginConfig ι) : ∀ a, Decidable (Steady c a)
  | .event _ _ => by unfold Steady; infer_instance
  | .serve _ _ => .isTrue trivial
  | .deliver _ _ => by unfold Steady; infer_instance

/-! ## The form keeps what its accounts in the making need -/

/-- What a handler leaves in `_email` and `_username`. -/
def SameFields (s s' : LoginState) : Prop :=
  s'.email = s.email ∧ s'.username = s.username

theorem onEvent_fields {s s' : LoginState} {e : Event} {out : List Effect}
    (h : onEvent s e = some (s', out)) :
    SameFields s s' ∨
      (e = .pressRegister ∧ s'.email = s.email ∧
        s'.username = some (normalise s.usernameText)) ∨
      (e = .pressLogin ∧ formErrors s = [] ∧ s'.email = some (normalise s.emailText) ∧
        s'.username = s.username) := by
  cases (ran h).2 with
  | pressLogin hl =>
      by_cases he : formErrors s = []
      · rw [validateAndSubmit_login he hl, formSave_login hl]
        exact Or.inr (Or.inr ⟨rfl, he, rfl, rfl⟩)
      · rw [validateAndSubmit_invalid he]
        exact Or.inl ⟨rfl, rfl⟩
  | pressRegister => exact Or.inr (Or.inl ⟨rfl, rfl, rfl⟩)
  | editUsername | editEmail | editPassword | moveToRegister | moveToLogin | dispose =>
      exact Or.inl ⟨rfl, rfl⟩

theorem submitFailed_fields (s : LoginState) (e : String) : SameFields s (submitFailed s e).1 := by
  rw [submitFailed]
  split <;> exact ⟨rfl, rfl⟩

/-- The answer finds a name free, and the form validates at this moment. -/
def Submits (s : LoginState) (cont : Cont) (a : Answer) : Prop :=
  cont = .checkUsername ∧ a = .documents [] ∧ s.mounted = true ∧ formErrors s = []

/-- No other answer changes the two fields. -/
theorem onAnswer_fields {s : LoginState} {cont : Cont} {a : Answer} (h : ¬ Submits s cont a) :
    SameFields s (onAnswer s cont a).1 := by
  cases cont with
  | checkUsername =>
      cases a with
      | documents ds =>
          by_cases hm : s.mounted = true
          · by_cases hd : ds = []
            · have he : formErrors s ≠ [] := fun he => h ⟨rfl, by rw [hd], hm, he⟩
              rw [onAnswer, usernameChecked_invalid hm hd he]
              exact ⟨rfl, rfl⟩
            · rw [onAnswer, usernameChecked_taken hm hd]
              exact ⟨rfl, rfl⟩
          · rw [onAnswer, usernameChecked_disposed hm]
            exact ⟨rfl, rfl⟩
      | snapshot | done | user | uid | failed => exact ⟨rfl, rfl⟩
  | signIn =>
      cases a with
      | failed e => exact submitFailed_fields s e
      | documents | snapshot | done | user | uid => exact ⟨rfl, rfl⟩
  | createUser =>
      cases a with
      | failed e => exact submitFailed_fields s e
      | documents | snapshot | done | user | uid => exact ⟨rfl, rfl⟩
  | saveUserData =>
      rw [onAnswer_save]
      exact ⟨rfl, rfl⟩

/-- Every form still has, in `_email` and `_username`, what each of its accounts in the making was
started with. -/
def FormKept (c : LoginConfig ι) : Prop :=
  ∀ i, ∀ r ∈ pending c i, (c.clients i).email = some r.1 ∧ (c.clients i).username = some r.2

theorem mem_pending {c : LoginConfig ι} {i : ι} {r : String × String} :
    r ∈ pending c i ↔
      (∃ m ∈ c.calls, m.client = i ∧ registration m = some r) ∨
      (∃ p ∈ c.answers, p.2.uid?.isSome = true ∧ p.1.client = i ∧ registration p.1 = some r) := by
  simp only [pending, List.mem_append, List.mem_filterMap, pendingAnswer, pendingCall,
    Option.ite_none_right_eq_some]

/-- A registration pending after a handler was pending before, or has just been issued. -/
theorem pending_post {c : LoginConfig ι} {i j : ι} {s : LoginState} {out : List (Call Cont)}
    {cause : List (Call Cont × Answer)} {r : String × String}
    (h : r ∈ pending (c.post i s out cause) j) :
    r ∈ pending c j ∨ (j = i ∧ ∃ call ∈ out, registration (Message.mk i call cause) = some r) := by
  rw [mem_pending] at h
  rw [mem_pending]
  rcases h with ⟨m, hm, hj, hr⟩ | h
  · rw [Config.post_calls, List.mem_append] at hm
    rcases hm with hm | hm
    · exact Or.inl (Or.inl ⟨m, hm, hj, hr⟩)
    · obtain ⟨call, hc, rfl⟩ := List.mem_map.mp hm
      exact Or.inr ⟨hj.symm, call, hc, hr⟩
  · exact Or.inl (Or.inr h)

theorem pending_taken {c : LoginConfig ι} {k : Nat} {i : ι} {r : String × String}
    (h : r ∈ pending (c.taken k) i) : r ∈ pending c i := by
  rw [mem_pending] at h ⊢
  rcases h with h | ⟨p, hp, h⟩
  · exact Or.inl h
  · exact Or.inr ⟨p, List.mem_of_mem_eraseIdx hp, h⟩

theorem pending_served {c : LoginConfig ι} {k : Nat} {m : LoginMessage ι} {b : Backend ι}
    {a : Answer} {i : ι} {r : String × String} (hk : c.calls[k]? = some m)
    (h : r ∈ pending (c.served k m b a) i) : r ∈ pending c i := by
  rw [mem_pending] at h ⊢
  rcases h with ⟨m', hm, h⟩ | ⟨p, hp, hu, h⟩
  · exact Or.inl ⟨m', List.mem_of_mem_eraseIdx hm, h⟩
  · rcases List.mem_append.mp hp with hp | hp
    · exact Or.inr ⟨p, hp, hu, h⟩
    · obtain rfl := List.mem_singleton.mp hp
      exact Or.inl ⟨m, List.mem_of_getElem? hk, h⟩

omit [DecidableEq ι] in
theorem registration_of_event {s s' : LoginState} {e : Event} {out : List Effect}
    (h : onEvent s e = some (s', out)) {call : Call Cont} (hc : call ∈ calls out) (i : ι) :
    registration (Message.mk i call []) = none := by
  cases sent_of_event h hc <;> rfl

omit [DecidableEq ι] in
/-- The only registration a handler starts is the one whose name a query has just found free, with
the e-mail of the form at this moment. -/
theorem registration_of_answer {s : LoginState} {call call' : Call Cont}
    {cause : List (Call Cont × Answer)} (hs : Sent call cause) {a : Answer} {i : ι}
    (hc : call' ∈ calls (onAnswer s call.cont a).2) {r : String × String}
    (hr : registration (Message.mk i call' ((call, a) :: cause)) = some r) :
    Submits s call.cont a ∧ asked [(call, a)] = some r.2 ∧ r.1 = normalise s.emailText := by
  rcases hs.inv with ⟨n, rfl, rfl⟩ | ⟨e, p, rfl⟩ | ⟨e, p, n, rfl, rfl⟩ |
    ⟨k, e, p, n, email, username, rfl, rfl⟩
  · rw [usernameQuery_cont] at hc ⊢
    rcases onAnswer_query_calls s a with h | ⟨rfl, -, -, -, h⟩ | ⟨rfl, hm, he, -, h⟩ <;>
      rw [h] at hc
    · cases hc
    · rw [List.mem_singleton.mp hc] at hr
      cases hr
    · rw [List.mem_singleton.mp hc] at hr
      -- the free name's `createUser`, with the e-mail of the form
      obtain rfl := Option.some.inj hr
      exact ⟨⟨rfl, rfl, hm, he⟩, rfl, rfl⟩
  · rw [onAnswer_signIn_calls] at hc
    cases hc
  · rcases onAnswer_createUser_calls s a with ⟨k, rfl, h⟩ | ⟨-, h⟩ <;> rw [h] at hc
    · rw [List.mem_singleton.mp hc] at hr
      cases hr
    · cases hc
  · rw [saveCall_cont, onAnswer_save] at hc
    cases hc

theorem Submits.asked {s : LoginState} {call : Call Cont} {cause : List (Call Cont × Answer)}
    {a : Answer} (h : Submits s call.cont a) (hs : Sent call cause) :
    ∃ n, call = usernameQuery n ∧ asked [(call, a)] = some n := by
  obtain ⟨hcont, ha, -, -⟩ := h
  rcases hs.inv with ⟨n, rfl, -⟩ | ⟨e, p, rfl⟩ | ⟨e, p, n, rfl, -⟩ |
    ⟨k, e, p, n, email, username, rfl, -⟩
  · exact ⟨n, rfl, by rw [ha]; rfl⟩
  · cases hcont
  · cases hcont
  · cases hcont

/-- A submission in register mode leaves in the two fields what the texts say. -/
theorem Submits.fields {s : LoginState} {cont : Cont} {a : Answer} (h : Submits s cont a)
    (hf : s.formType = .register) :
    (onAnswer s cont a).1.email = some (normalise s.emailText) ∧
    (onAnswer s cont a).1.username = some (normalise s.usernameText) := by
  obtain ⟨rfl, rfl, hm, he⟩ := h
  rw [onAnswer, usernameChecked_register hm rfl he hf]
  exact ⟨rfl, rfl⟩

section Run

variable {B : Backend ι → Prop} {c c' : LoginConfig ι}

theorem formKept (h : (loginSystem ι B).Reach Steady c) : FormKept c := by
  refine h.invariant (P := FormKept) ?_ ?_
  · rintro _ ⟨b, -, rfl⟩ i r hr
    cases hr
  · intro c a c' hreach hq hC hs
    refine step_keeps (Q := FormKept) hs ?_ ?_ ?_
    · -- an event starts no registration; a press or a login finds the form steady
      intro i e s out hact he j r hr
      subst hact
      obtain ⟨eff, heff, rfl⟩ := program_onEvent he
      rcases pending_post hr with hold | ⟨-, call, hc, hr'⟩
      case inr =>
        rw [registration_of_event heff hc] at hr'
        cases hr'
      obtain ⟨hemail, hname⟩ := hq j r hold
      rw [Config.post_clients]
      by_cases hji : j = i
      · subst hji
        rw [Function.update_self]
        rcases onEvent_fields heff with ⟨h₁, h₂⟩ | ⟨he, h₁, h₂⟩ | ⟨he, herr, h₁, h₂⟩
        · exact ⟨h₁.trans hemail, h₂.trans hname⟩
        · exact ⟨h₁.trans hemail, by rw [h₂, hC.1 he r hold]⟩
        · exact ⟨by rw [h₁, hC.2 he herr r hold], h₂.trans hname⟩
      · rw [Function.update_of_ne hji]
        exact ⟨hemail, hname⟩
    · intro k o m b a _ hk _ j r hr
      exact hq j r (pending_served hk hr)
    · rintro k d ⟨i, call, cause⟩ a s out rfl hk ha j r hr
      obtain ⟨rfl, rfl⟩ := program_onAnswer ha
      have hsent := sent_of_outstanding hreach hk
      have hold := (pending_post hr).imp_left pending_taken
      rw [Config.post_clients]
      by_cases hji : j = i
      · subst hji
        rw [Function.update_self]
        by_cases hsub : Submits (c.clients j) call.cont a
        · -- the form is re-read: it is steady, and what it now has is what `r` needs
          obtain ⟨n, rfl, hn⟩ := hsub.asked hsent
          obtain ⟨hf, hname, hall⟩ := hC _ hk n hn hsub.2.2.1 hsub.2.2.2
          have hr' : r = (normalise (c.clients j).emailText, n) := by
            rcases hold with hold | ⟨-, call', hc, hreg⟩
            · exact hall r hold
            · obtain ⟨-, hn', hemail⟩ := registration_of_answer hsent hc hreg
              exact Prod.ext hemail (Option.some.inj (hn'.symm.trans hn))
          obtain ⟨h₁, h₂⟩ := hsub.fields hf
          rw [hr']
          exact ⟨h₁, h₂.trans (congrArg some hname)⟩
        · obtain ⟨h₁, h₂⟩ := onAnswer_fields hsub
          rcases hold with hold | ⟨-, call', hc, hreg⟩
          · exact ⟨h₁.trans (hq j r hold).1, h₂.trans (hq j r hold).2⟩
          · exact absurd (registration_of_answer hsent hc hreg).1 hsub
      · rw [Function.update_of_ne hji]
        rcases hold with hold | ⟨hij, -⟩
        · exact hq j r hold
        · exact absurd hij hji

/-- In every run whose steps find the form steady, every step is coherent: a successful
registration writes the profile of the e-mail and the name it was started with, and the answer of a
query never triggers a `signIn`. -/
theorem coherent_of_steady (h : (loginSystem ι B).Reach Steady c) {a : LoginAction ι}
    (hC : Steady c a) (hs : (loginSystem ι B).step c a = some c') : Coherent c a c' := by
  rintro k ⟨i, call, cause⟩ r rfl hk
  obtain ⟨_, _, s, out, hk', ha, rfl⟩ := step_deliver (S := firebase ι Cont) hs
  obtain ⟨rfl, rfl⟩ := Prod.mk.inj (Option.some.inj (hk.symm.trans hk'))
  obtain ⟨rfl, rfl⟩ := program_onAnswer ha
  refine ⟨?_, ?_⟩
  · rintro e p n uid rfl hn rfl
    -- the form still has the e-mail and the name of this registration
    have hpending : (e, n) ∈ pending c i := mem_pending.mpr (Or.inr
      ⟨_, List.mem_of_getElem? hk, rfl, rfl, by simp only [registration, hn]⟩)
    obtain ⟨hemail, hname⟩ := formKept h i _ hpending
    have hcalls : calls (onAnswer (c.clients i) .createUser (.uid uid)).2
        = [saveCall uid (some e) (some n)] := by
      rw [← hemail, ← hname]
      rfl
    rw [Config.post_issued, hcalls]
    rfl
  · intro hcont
    refine ⟨_, rfl, fun m' hm' => ?_⟩
    obtain ⟨hc, -, -⟩ := mem_map_message hm'
    rcases onAnswer_query_calls (c.clients i) r with h' | ⟨rfl, hm, he, hf, h'⟩ | ⟨-, -, -, -, h'⟩
    · rw [hcont, h'] at hc
      cases hc
    · -- in login mode the step would not have been steady
      have hsub : Submits (c.clients i) call.cont (.documents []) := ⟨hcont, rfl, hm, he⟩
      obtain ⟨n, -, hn⟩ := hsub.asked (sent_of_outstanding h hk)
      rw [(hC _ hk n hn hm he).1] at hf
      cases hf
    · rw [hcont, h'] at hc
      rw [List.mem_singleton.mp hc]
      nofun

end Run

/-! ## A steady registration, and an edit in the gap -/

/-- What handling the first outstanding answer of a single form does. -/
structure Handled where
  steady : Bool
  answer : Option (LoginMessage Unit × Answer)
  before : List (Call Cont)
  after : List (Call Cont)
  deriving DecidableEq

def handleFirst (c : LoginConfig Unit) : Option Handled :=
  ((loginSystem Unit fun _ => True).step c (.deliver 0 ())).map fun c' =>
    ⟨decide (Steady c (.deliver 0 ())), c.answers[0]?, c.issued.map (·.call),
      c'.issued.map (·.call)⟩

/-- The account of Ola, asked for under the name `ola`, is created as `u1`; handle its answer. -/
def olaCreated : LoginMessage Unit × Answer :=
  (⟨(), ⟨.createUser, .createUser (some "o@p") (some "x")⟩, [(usernameQuery "ola", .documents [])]⟩,
    .uid "u1")

theorem coherent_of_steady_ola : ∃ c c' : LoginConfig Unit,
    (loginSystem Unit fun _ => True).follow Steady (start (Backend.empty Unit))
      (fillForm () "Ola" "o@p" "x" ++ [.event () .pressRegister, .serve 0 (.accept ""),
        .deliver 0 (), .event () (.editUsername "kai"), .serve 0 (.accept "u1")]) = some c ∧
    (loginSystem Unit fun _ => True).step c (.deliver 0 ()) = some c' ∧
    c.answers[0]? = some olaCreated ∧ Coherent c (.deliver 0 ()) c' := by
  have hrun : ((loginSystem Unit fun _ => True).follow Steady (start (Backend.empty Unit))
      (fillForm () "Ola" "o@p" "x" ++ ([.event () .pressRegister, .serve 0 (.accept ""),
        .deliver 0 (), .event () (.editUsername "kai"), .serve 0 (.accept "u1")] :
          List (LoginAction Unit)))).bind handleFirst
      = some ⟨true, some olaCreated,
          [usernameQuery "ola", ⟨.createUser, .createUser (some "o@p") (some "x")⟩],
          [usernameQuery "ola", ⟨.createUser, .createUser (some "o@p") (some "x")⟩,
            saveCall "u1" (some "o@p") (some "ola")]⟩ := by
    decide +kernel
  obtain ⟨c, hc, hfirst⟩ := Option.bind_eq_some_iff.mp hrun
  obtain ⟨c', hs, heq⟩ := Option.map_eq_some_iff.mp hfirst
  obtain ⟨hsteady, hk, -, -⟩ := Handled.mk.inj heq
  exact ⟨c, c', hc, hs, hk, coherent_of_steady
    (Machine.Reach.of_follow ⟨_, trivial, rfl⟩ hc) (of_decide_eq_true hsteady) hs⟩

/-- The name field is edited while the query is out. The answer, about `ola`, saves the form again;
the account is Ola's, the profile says `kai`, a name nobody asked about. -/
theorem not_coherent : ¬ ∀ c c' : LoginConfig Unit, ∀ a,
    (loginSystem Unit fun _ => True).Reachable c →
    (loginSystem Unit fun _ => True).step c a = some c' → Coherent c a c' := by
  intro h
  have hrun : ((loginSystem Unit fun _ => True).run (start (Backend.empty Unit))
      (fillForm () "Ola" "o@p" "x" ++ ([.event () .pressRegister, .event () (.editUsername "kai"),
        .serve 0 (.accept ""), .deliver 0 (), .serve 0 (.accept "u1")] :
          List (LoginAction Unit)))).bind handleFirst
      = some ⟨true, some olaCreated,
          [usernameQuery "ola", ⟨.createUser, .createUser (some "o@p") (some "x")⟩],
          [usernameQuery "ola", ⟨.createUser, .createUser (some "o@p") (some "x")⟩,
            saveCall "u1" (some "o@p") (some "kai")]⟩ := by
    decide +kernel
  obtain ⟨c, hc, hfirst⟩ := Option.bind_eq_some_iff.mp hrun
  obtain ⟨c', hs, heq⟩ := Option.map_eq_some_iff.mp hfirst
  obtain ⟨-, hk, hbefore, hafter⟩ := Handled.mk.inj heq
  have hcoh := (h c c' _ (Machine.Reach.of_follow ⟨_, trivial, rfl⟩ hc) hs 0 _ _ rfl hk).1
    "o@p" "x" "ola" "u1" rfl rfl rfl
  rw [hcoh, List.map_append, hbefore] at hafter
  exact absurd hafter (by decide +kernel)

end P0ker.Registration
