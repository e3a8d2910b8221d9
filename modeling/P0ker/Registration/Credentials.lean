import P0ker.Registration.Basic
import P0ker.Writes

/-!
# Which passwords open an account?

Both modes of the Login form save the password as they save the e-mail, trimmed and in lower case.
So the two modes agree, and what was registered signs in; but so does every text with the same
trimmed lower-case form (`signs_in_iff`), and there always is another one (`exists_other`).
-/

namespace P0ker.Credentials

open Async Login Registration

variable {ι : Type} [DecidableEq ι]

/-! ## What a submission passes on -/

/-- In the step from `c` to `c'` form `i`, which shows the e-mail `e` and the password `p`, passes
`req` on. -/
structure Passes (i : ι) (e p : String) (req : Request) (c c' : LoginConfig ι) : Prop where
  email : (c.clients i).emailText = e
  password : (c.clients i).passwordText = p
  step : ∃ a, (loginSystem ι fun _ => True).step c a = some c'
  issued : ∃ m ∈ since c c', m.client = i ∧ m.call.req = req

/-- The form `s` submits `x` and `y`: they are the trimmed lower-case forms of its texts. -/
structure Submitted (s : LoginState) (x y : Option String) : Prop where
  valid : formErrors s = []
  email : x = some (normalise s.emailText)
  password : y = some (normalise s.passwordText)

/-- The request carries the credentials `x` and `y`. -/
def Carries (x y : Option String) (req : Request) : Prop :=
  req = .createUser x y ∨ req = .signIn x y

section Submitted

variable {s s' : LoginState} {e : Event} {out : List Effect} {x y : Option String}
  {call : Call Cont}

/-- The call of a submission carries what the form submits. -/
theorem Submitted.of_call {cont : Cont} {req : Request} (he : formErrors s = [])
    (hreq : Carries (some (normalise s.emailText)) (some (normalise s.passwordText)) req)
    (hc : call ∈ [(⟨cont, req⟩ : Call Cont)]) (hcarries : Carries x y call.req) :
    Submitted s x y := by
  rw [List.mem_singleton.mp hc] at hcarries
  rcases hreq with rfl | rfl
  · rcases hcarries with h | h
    · obtain ⟨rfl, rfl⟩ := Request.createUser.inj h
      exact ⟨he, rfl, rfl⟩
    · cases h
  · rcases hcarries with h | h
    · cases h
    · obtain ⟨rfl, rfl⟩ := Request.signIn.inj h
      exact ⟨he, rfl, rfl⟩

theorem submitted_of_event (h : onEvent s e = some (s', out)) (hc : call ∈ calls out)
    (hcarries : Carries x y call.req) : Submitted s x y := by
  rcases onEvent_calls h with h | ⟨-, h⟩ | ⟨-, he, -, h⟩ <;> rw [h] at hc
  · cases hc
  · rw [List.mem_singleton.mp hc] at hcarries
    rcases hcarries with h | h <;> cases h
  · exact Submitted.of_call he (Or.inr rfl) hc hcarries

theorem submitted_of_answer {cont : Cont} {a : Answer} (hc : call ∈ calls (onAnswer s cont a).2)
    (hcarries : Carries x y call.req) : Submitted s x y := by
  cases cont with
  | checkUsername =>
      rcases onAnswer_query_calls s a with h | ⟨-, -, he, -, h⟩ | ⟨-, -, he, -, h⟩ <;> rw [h] at hc
      · cases hc
      · exact Submitted.of_call he (Or.inr rfl) hc hcarries
      · exact Submitted.of_call he (Or.inl rfl) hc hcarries
  | signIn =>
      rw [onAnswer_signIn_calls] at hc
      cases hc
  | createUser =>
      rcases onAnswer_createUser_calls s a with ⟨k, -, h⟩ | ⟨-, h⟩ <;> rw [h] at hc
      · -- the profile carries no password
        rw [List.mem_singleton.mp hc] at hcarries
        rcases hcarries with h | h <;> cases h
      · cases hc
  | saveUserData =>
      rw [onAnswer_save] at hc
      cases hc

end Submitted

section Passes

variable {i : ι} {e p : String} {x y : Option String} {req : Request} {c c' : LoginConfig ι}

/-- What is passed on are the trimmed lower-case forms of the texts. -/
theorem Passes.submitted (h : Passes i e p req c c') (hcarries : Carries x y req) :
    x = some (normalise e) ∧ y = some (normalise p) := by
  obtain ⟨a, hs⟩ := h.step
  obtain ⟨m, hm, rfl, rfl⟩ := h.issued
  have hsubmitted : Submitted (c.clients m.client) x y := by
    have hnone : m ∉ since c c := by
      rw [since, List.drop_length]
      exact List.not_mem_nil
    revert hm
    refine step_keeps (Q := fun c' => m ∈ since c c' → Submitted (c.clients m.client) x y) hs
      ?_ (fun _ _ _ _ _ _ _ _ hm => absurd hm hnone) ?_
    · intro j e s out _ he hm
      rcases (mem_since_post (List.prefix_refl _)).mp hm with hm | ⟨call, hc, rfl⟩
      · exact absurd hm hnone
      · obtain ⟨eff, heff, rfl⟩ := program_onEvent he
        exact submitted_of_event heff hc hcarries
    · intro k d m' r s out _ _ ha hm
      have hprefix : c.issued <+: (c.taken k).issued := List.prefix_refl _
      rcases (mem_since_post hprefix).mp hm with hm | ⟨call, hc, rfl⟩
      · exact absurd hm hnone
      · obtain ⟨-, rfl⟩ := program_onAnswer ha
        exact submitted_of_answer hc hcarries
  rw [← h.email, ← h.password]
  exact ⟨hsubmitted.email, hsubmitted.password⟩

end Passes

/-! ## What opens an account -/

/-- The account `uid` has these credentials, and no other account has this uid. -/
structure Owned (email password uid : String) (b : Backend ι) : Prop where
  account : b.accounts.lookup email = some ⟨password, uid⟩
  only : ∀ email' a, b.accounts.lookup email' = some a → a.uid = uid → email' = email

/-- The backend can sign device `i` in to the account `uid`. -/
def Opens (b : Backend ι) (i : ι) (x y : Option String) (uid : String) : Prop :=
  ∃ o b', b.serve i (.signIn x y) o = some (b', .uid uid)

section Owned

variable {email password uid : String} {b b' : Backend ι} {i : ι} {r : Request} {o : Outcome}
  {a : Answer}

omit [DecidableEq ι] in
theorem mem_uids {email : String} {acc : Account} (h : b.accounts.lookup email = some acc) :
    acc.uid ∈ b.uids := by
  have hmem := AList.mem_lookup_iff.mp (Option.mem_def.mpr h)
  exact List.mem_map.mpr ⟨_, hmem, rfl⟩

theorem Owned.of_createUser
    (h : b.serve i (.createUser (some email) (some password)) o = some (b', .uid uid)) :
    Owned email password uid b' := by
  cases Backend.served_of_serve h with
  | created _ _ _ hemail huid =>
      refine ⟨AList.lookup_insert _, ?_⟩
      intro email' acc hacc hsame
      by_contra hne
      rw [AList.lookup_insert_ne hne] at hacc
      exact huid (hsame ▸ mem_uids hacc)

theorem Owned.serve (h : Owned email password uid b) (hs : b.serve i r o = some (b', a)) :
    Owned email password uid b' := by
  cases Backend.served_of_serve hs with
  | rejected | found | got | wrote | added | user | signedIn => exact ⟨h.account, h.only⟩
  | created email' password' uid' hemail huid =>
      -- the new account has another e-mail and another uid
      have hother : email ≠ email' := by
        rintro rfl
        exact hemail (AList.lookup_isSome.mp (by rw [h.account]; rfl))
      refine ⟨?_, ?_⟩
      · show (b.accounts.insert email' _).lookup email = _
        rw [AList.lookup_insert_ne hother]
        exact h.account
      · intro email'' acc hacc hsame
        by_cases hnew : email'' = email'
        · subst hnew
          rw [AList.lookup_insert] at hacc
          obtain rfl := Option.some.inj hacc
          exact absurd (mem_uids h.account) (hsame ▸ huid)
        · rw [AList.lookup_insert_ne hnew] at hacc
          exact h.only email'' acc hacc hsame

theorem Owned.steps {c c' : LoginConfig ι} (h : Owned email password uid c.backend)
    (hs : (loginSystem ι fun _ => True).Steps (fun _ _ => True) c c') :
    Owned email password uid c'.backend := by
  refine hs.preserves (P := fun c => Owned email password uid c.backend) h ?_
  intro c a c' hq _ hstep
  exact step_keeps (Q := fun c => Owned email password uid c.backend) hstep
    (fun _ _ _ _ _ _ => hq) (fun _ _ _ _ _ _ _ hserve => hq.serve hserve)
    fun _ _ _ _ _ _ _ _ _ => hq

/-- Its own credentials open an account, and no others. -/
theorem Owned.opens_iff (h : Owned email password uid b) {e p : String} :
    Opens b i (some e) (some p) uid ↔ e = email ∧ p = password := by
  constructor
  · rintro ⟨o, b', hs⟩
    cases Backend.served_of_serve hs with
    | signedIn _ _ acc hacc hp =>
        obtain rfl := h.only e acc hacc rfl
        have hsame := Option.some.inj (hacc.symm.trans h.account)
        exact ⟨rfl, hp.symm.trans (congrArg Account.password hsame)⟩
  · rintro ⟨rfl, rfl⟩
    refine ⟨.accept "", { b with session := Function.update b.session i (some uid) }, ?_⟩
    simp only [Backend.serve, h.account, if_true]

end Owned

/-! ## The two forms -/

/-- After `c₁` form `i` has its call with the credentials `x` and `y` answered with the new account
`uid`, in a run that goes on to `c`. -/
structure Created (i : ι) (x y : Option String) (uid : String) (c₁ c : LoginConfig ι) : Prop where
  created : ∃ c₂ k m o b, (loginSystem ι fun _ => True).Steps (fun _ _ => True) c₁ c₂ ∧
    c₂.calls[k]? = some m ∧ m.client = i ∧ m.call.req = .createUser x y ∧
    c₂.backend.serve i m.call.req o = some (b, .uid uid) ∧
    (loginSystem ι fun _ => True).Steps (fun _ _ => True) (c₂.served k m b (.uid uid)) c

section SignsIn

variable {i j : ι} {e p e' p' : String} {x y x' y' : Option String} {c₀ c₁ c c' : LoginConfig ι}

theorem Created.owned {email password uid : String}
    (h : Created i (some email) (some password) uid c₁ c) :
    Owned email password uid c.backend := by
  obtain ⟨c₂, k, m, o, b, -, -, -, hreq, hserve, hsteps⟩ := h.created
  rw [hreq] at hserve
  exact Owned.steps (c := c₂.served k m b (.uid uid)) (Owned.of_createUser hserve) hsteps

/-- **Signing in.** Let a form in register mode, showing `e` and `p`, pass `x` and `y` to
`createUser`, and a form in login mode, showing `e'` and `p'`, pass `x'` and `y'` to `signIn`. They
pass the same values if and only if `e` and `e'`, and `p` and `p'`, have the same trimmed lower-case
forms; and when the first has created an account, just then the second opens it. -/
theorem signs_in_iff (h : Passes i e p (.createUser x y) c₀ c₁)
    (h' : Passes j e' p' (.signIn x' y') c c') :
    (x' = x ∧ y' = y ↔ normalise e' = normalise e ∧ normalise p' = normalise p) ∧
      ∀ uid d, Created i x y uid c₁ d →
        (Opens d.backend j x' y' uid ↔
          normalise e' = normalise e ∧ normalise p' = normalise p) := by
  obtain ⟨rfl, rfl⟩ := h.submitted (Or.inl rfl)
  obtain ⟨rfl, rfl⟩ := h'.submitted (Or.inr rfl)
  constructor
  · rw [Option.some.injEq, Option.some.injEq]
  · intro uid d hcreated
    exact hcreated.owned.opens_iff

/-- Every text has another one with the same trimmed lower-case form. -/
theorem exists_other (p : String) : ∃ p', p' ≠ p ∧ normalise p' = normalise p := by
  refine ⟨p ++ " ", ?_, ?_⟩
  · intro h
    have hlength := congrArg String.length h
    rw [String.length_append] at hlength
    exact absurd hlength (by simp)
  · rw [normalise, normalise, Dart.trim_append_blank]

end SignsIn

/-! ## A password in two spellings -/

/-- The clients and requests of the messages. -/
def requests (ms : List (LoginMessage Bool)) : List (Bool × Request) :=
  ms.map fun m => (m.client, m.call.req)

/-- What is seen of a registration and a login: for each the texts in the form and the calls they
lead to, and of the first the outstanding calls and the answer. -/
structure Seen where
  registers : String × String × List (Bool × Request)
  called : List (Bool × Request)
  answered : Option Answer
  logsIn : String × String × List (Bool × Request)
  deriving DecidableEq

/-- Form `true` registers with the password `p`, and the backend creates `u1`; then form `false`
logs in with `p'`. -/
def registerAndLogin (p p' : String) : Option Seen :=
  ((loginSystem Bool fun _ => True).run (start (Backend.empty Bool)) (fillForm true "Ola" "o@p" p ++
      ([.event true .pressRegister, .serve 0 (.accept "")] : List (LoginAction Bool)))).bind
        fun c₀ =>
    ((loginSystem Bool fun _ => True).step c₀ (.deliver 0 ())).bind fun c₁ =>
      ((loginSystem Bool fun _ => True).step c₁ (.serve 0 (.accept "u1"))).bind fun c₂ =>
        ((loginSystem Bool fun _ => True).run c₂ [.event false (.editEmail "o@p"),
            .event false (.editPassword p')]).bind fun c =>
          ((loginSystem Bool fun _ => True).step c (.event false .pressLogin)).map fun c' =>
            { registers := ((c₀.clients true).emailText, (c₀.clients true).passwordText,
                requests (since c₀ c₁))
              called := requests c₁.calls
              answered := c₂.answers.getLast?.map Prod.snd
              logsIn := ((c.clients false).emailText, (c.clients false).passwordText,
                requests (since c c')) }

/-- Ola registers with the passwords `p`, and logs in with `p'`. -/
def olaSeen (p p' : String) (r r' : Request) : Seen :=
  ⟨("o@p", p, [(true, r)]), [(true, r)], some (.uid "u1"), ("o@p", p', [(false, r')])⟩

theorem passes_of_requests {i : Bool} {e p : String} {r : Request} {c c' : LoginConfig Bool}
    {a : LoginAction Bool} (hs : (loginSystem Bool fun _ => True).step c a = some c')
    (he : (c.clients i).emailText = e) (hp : (c.clients i).passwordText = p)
    (hcalls : requests (since c c') = [(i, r)]) : Passes i e p r c c' := by
  refine ⟨he, hp, ⟨a, hs⟩, ?_⟩
  obtain ⟨m, hm, heq⟩ := List.mem_map.mp (hcalls ▸ List.mem_singleton_self (i, r))
  obtain ⟨rfl, rfl⟩ := Prod.mk.inj heq
  exact ⟨m, hm, rfl, rfl⟩

theorem passes_of_registerAndLogin {p p' : String} {x y x' y' : Option String}
    (h : registerAndLogin p p' = some (olaSeen p p' (.createUser x y) (.signIn x' y'))) :
    ∃ c₀ c₁ c c' : LoginConfig Bool, (loginSystem Bool fun _ => True).Reachable c₀ ∧
      Passes true "o@p" p (.createUser x y) c₀ c₁ ∧ Created true x y "u1" c₁ c ∧
      Passes false "o@p" p' (.signIn x' y') c c' := by
  obtain ⟨c₀, h₀, h⟩ := Option.bind_eq_some_iff.mp h
  obtain ⟨c₁, h₁, h⟩ := Option.bind_eq_some_iff.mp h
  obtain ⟨c₂, h₂, h⟩ := Option.bind_eq_some_iff.mp h
  obtain ⟨c, hc, h⟩ := Option.bind_eq_some_iff.mp h
  obtain ⟨c', hc', h⟩ := Option.map_eq_some_iff.mp h
  obtain ⟨hregisters, hcalled, hanswered, hlogsIn⟩ := Seen.mk.inj h
  obtain ⟨he, hregisters⟩ := Prod.mk.inj hregisters
  obtain ⟨hp, hcalls⟩ := Prod.mk.inj hregisters
  obtain ⟨he', hlogsIn⟩ := Prod.mk.inj hlogsIn
  obtain ⟨hp', hcalls'⟩ := Prod.mk.inj hlogsIn
  refine ⟨c₀, c₁, c, c', Machine.Reach.of_follow ⟨_, trivial, rfl⟩ h₀,
    passes_of_requests h₁ he hp hcalls, ?_, passes_of_requests hc' he' hp' hcalls'⟩
  obtain ⟨m, b, a, hk, hserve, rfl⟩ := step_serve (P := program) h₂
  -- the answer seen is that of the only call there was
  have hm : some (m.client, m.call.req) = some (true, Request.createUser x y) := by
    have hget := congrArg (fun ms : List (Bool × Request) => ms[0]?) hcalled
    simpa [requests, hk] using hget
  obtain ⟨hclient, hreq⟩ := Prod.mk.inj (Option.some.inj hm)
  have ha : a = .uid "u1" := by
    rw [Config.served_answers, List.getLast?_concat] at hanswered
    exact Option.some.inj hanswered
  subst ha
  rw [hclient] at hserve
  exact ⟨c₁, 0, m, _, b, Relation.ReflTransGen.refl, hk, hclient, hreq, hserve,
    Machine.Steps.of_follow hc⟩

theorem registerAndLogin_same : registerAndLogin "Secret1" "Secret1" =
    some (olaSeen "Secret1" "Secret1" (.createUser (some "o@p") (some "secret1"))
      (.signIn (some "o@p") (some "secret1"))) := by
  decide +kernel

theorem signs_in_iff_ola : ∃ c₀ c₁ c c' : LoginConfig Bool,
    Passes true "o@p" "Secret1" (.createUser (some "o@p") (some "secret1")) c₀ c₁ ∧
    Passes false "o@p" "Secret1" (.signIn (some "o@p") (some "secret1")) c c' ∧
    Opens c.backend false (some "o@p") (some "secret1") "u1" := by
  obtain ⟨c₀, c₁, c, c', -, h, hcreated, h'⟩ := passes_of_registerAndLogin registerAndLogin_same
  exact ⟨c₀, c₁, c, c', h, h', ((signs_in_iff h h').2 "u1" c hcreated).mpr ⟨rfl, rfl⟩⟩

theorem registerAndLogin_lower : registerAndLogin "Secret1" "secret1" =
    some (olaSeen "Secret1" "secret1" (.createUser (some "o@p") (some "secret1"))
      (.signIn (some "o@p") (some "secret1"))) := by
  decide +kernel

/-- Ola registers with `Secret1`. The form passes the same on when it is `secret1` that is typed,
and that opens her account. -/
theorem not_signs_in :
    (¬ ∀ (i j : Bool) (e p e' p' : String) (x y x' y' : Option String)
      (c₀ c₁ c c' : LoginConfig Bool), (loginSystem Bool fun _ => True).Reachable c₀ →
      Passes i e p (.createUser x y) c₀ c₁ → Passes j e' p' (.signIn x' y') c c' →
        (x' = x ∧ y' = y ↔ normalise e' = normalise e ∧ p' = p)) ∧
    ¬ ∀ (i j : Bool) (e p e' p' : String) (x y x' y' : Option String) (uid : String)
      (c₀ c₁ c c' : LoginConfig Bool), (loginSystem Bool fun _ => True).Reachable c₀ →
      Passes i e p (.createUser x y) c₀ c₁ → Created i x y uid c₁ c →
      Passes j e' p' (.signIn x' y') c c' → Opens c.backend j x' y' uid → p' = p := by
  obtain ⟨c₀, c₁, c, c', hr, h, hcreated, h'⟩ := passes_of_registerAndLogin registerAndLogin_lower
  have hne : "secret1" ≠ "Secret1" := by decide
  constructor
  · intro hall
    exact hne ((hall _ _ _ _ _ _ _ _ _ _ c₀ c₁ c c' hr h h').mp ⟨rfl, rfl⟩).2
  · intro hall
    have hopens := hcreated.owned.opens_iff (i := false) (e := "o@p") (p := "secret1")
    exact hne (hall _ _ _ _ _ _ _ _ _ _ _ c₀ c₁ c c' hr h hcreated h' (hopens.mpr ⟨rfl, rfl⟩))

end P0ker.Credentials
