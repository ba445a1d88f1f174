/-
Scope sets. A `set` removes the stored tokens whose scopes cover its own, so no stored token covers a later one,
and the token of a `set` is the first that its scopes find. It also removes a token of more scopes, and what only
that token gave access to is lost.
-/
import CloudSync.Providers.TokenFallback

namespace CloudSync.SecureTokenStorage

open Ipc (Json)

/-! ## Covering -/

theorem scopesCoveredBy_iff {a b : List Str} : scopesCoveredBy a b = true ↔ ∀ x ∈ b, x ∈ a := by
  unfold scopesCoveredBy
  simp only [List.all_eq_true, List.contains_iff_mem]

theorem scopesCoveredBy_trans {a b c : List Str} (hab : scopesCoveredBy a b = true)
    (hbc : scopesCoveredBy b c = true) : scopesCoveredBy a c = true := by
  rw [scopesCoveredBy_iff] at *
  exact fun x hx => hab x (hbc x hx)

/-- The same scopes, in any order and repeated or not. -/
def SameScopes (a b : List Str) : Prop := ∀ x, x ∈ a ↔ x ∈ b

theorem sameScopes_iff {a b : List Str} :
    SameScopes a b ↔ scopesCoveredBy a b = true ∧ scopesCoveredBy b a = true := by
  rw [scopesCoveredBy_iff, scopesCoveredBy_iff]
  exact ⟨fun h => ⟨fun x => (h x).2, fun x => (h x).1⟩, fun h x => ⟨h.2 x, h.1 x⟩⟩

section

variable {T : Type} {tokens : Json T} {lists : Json (List StoredToken)}

/-- A token that can be read. -/
def Readable (tokens : Json T) (t : StoredToken) : Prop := ∃ token, tokens.fromStr t.tokenInfo = .ok token

theorem exists_findToken {stored : List StoredToken} {scopes : List Str} :
    (∃ token, findToken tokens stored scopes = some token) ↔
      ∃ t ∈ stored, scopesCoveredBy t.scopes scopes = true ∧ Readable tokens t := by
  unfold findToken Readable
  rw [← Option.isSome_iff_exists, List.findSome?_isSome_iff]
  refine exists_congr fun t => and_congr_right fun _ => ?_
  split
  · rename_i hcovers
    rw [hcovers]
    cases tokens.fromStr t.tokenInfo <;> simp [Except.toOption]
  · rename_i hcovers
    simp [hcovers]

/-! ## What a `get` answers -/

theorem get_memory {s : SecureTokenStorage} {scopes : List Str} {token : T}
    (h : findToken tokens s.cache scopes = some token) (keyring failure : Option Str) :
    get tokens lists scopes keyring failure s = (some token, s) := by
  unfold get
  rw [h]

/-- After a `get` that answers, memory answers. -/
theorem findToken_of_get {s s' : SecureTokenStorage} {scopes : List Str} {keyring failure : Option Str} {token : T}
    (h : get tokens lists scopes keyring failure s = (some token, s')) :
    findToken tokens s'.cache scopes = some token := by
  unfold get at h
  split at h
  · rename_i hfind
    cases h
    exact hfind
  · split at h
    · split at h
      · obtain ⟨hfind, rfl⟩ := Prod.mk.inj h
        exact hfind
      · cases h
    · cases h

/-- With stores that fail only memory answers. -/
theorem get_failing (s : SecureTokenStorage) (scopes : List Str) (keyring failure : Str) :
    get tokens lists scopes (some keyring) (some failure) s = (findToken tokens s.cache scopes, s) := by
  have hretrieve : ∃ e, s.stores.retrieveToken s.backend (some keyring) (some failure) = .error e := by
    cases s.backend <;> exact ⟨_, rfl⟩
  obtain ⟨e, he⟩ := hretrieve
  unfold get
  cases hfind : findToken tokens s.cache scopes with
  | some token => rfl
  | none =>
    simp only
    rw [he]

/-- A `get` for the scopes has just answered. -/
def Answered (tokens : Json T) (lists : Json (List StoredToken)) (s : SecureTokenStorage) (required : List Str) :
    Prop :=
  ∃ keyring failure token s₀, get tokens lists required keyring failure s₀ = (some token, s)

/-- A `get` for the scopes answers, whatever the stores do. -/
def Answers (tokens : Json T) (lists : Json (List StoredToken)) (s : SecureTokenStorage) (required : List Str) :
    Prop :=
  ∀ keyring failure, ∃ token, (get tokens lists required keyring failure s).1 = some token

theorem answered_iff {s : SecureTokenStorage} {required : List Str} :
    Answered tokens lists s required ↔
      ∃ t ∈ s.cache, scopesCoveredBy t.scopes required = true ∧ Readable tokens t := by
  rw [← exists_findToken]
  constructor
  · rintro ⟨_, _, token, _, hget⟩
    exact ⟨token, findToken_of_get hget⟩
  · rintro ⟨token, hfind⟩
    exact ⟨none, none, token, s, get_memory hfind none none⟩

theorem answers_iff {s : SecureTokenStorage} {required : List Str} :
    Answers tokens lists s required ↔
      ∃ t ∈ s.cache, scopesCoveredBy t.scopes required = true ∧ Readable tokens t := by
  rw [← exists_findToken]
  constructor
  · intro h
    obtain ⟨token, hget⟩ := h (some []) (some [])
    rw [get_failing] at hget
    exact ⟨token, hget⟩
  · rintro ⟨token, hfind⟩ keyring failure
    exact ⟨token, congrArg Prod.fst (get_memory hfind keyring failure)⟩

/-! ## What a `set` keeps -/

/-- No token that can be read has the scopes and others besides. -/
def NoBroader (tokens : Json T) (cache : List StoredToken) (scopes : List Str) : Prop :=
  ∀ t ∈ cache, Readable tokens t → scopesCoveredBy t.scopes scopes = true → scopesCoveredBy scopes t.scopes = true

/-- No `set` of the history finds a token of its scopes and others besides. -/
def NeverBroader (tokens : Json T) (lists : Json (List StoredToken)) (s : SecureTokenStorage)
    (calls : List (SetCall T)) : Prop :=
  ∀ before c, before ++ [c] <+: calls → ∀ s₀, setAll tokens lists s before = some s₀ →
    NoBroader tokens s₀.cache c.scopes

section

variable {scopes : List Str} {token : T} {keyring : Option Str} {failure : Option WriteFailure}
  {s s' : SecureTokenStorage}

/-- A `set` leaves its own token and those that do not cover its scopes. -/
theorem mem_set_cache (htokens : ParsedToken tokens)
    (hset : set tokens lists scopes token keyring failure s = (.ok (), s')) :
    ∃ t, t.scopes = scopes ∧ Readable tokens t ∧
      ∀ u, u ∈ s'.cache ↔ u ∈ s.cache ∧ scopesCoveredBy u.scopes scopes = false ∨ u = t := by
  obtain ⟨tokenJson, -, htoken, -, -, hcache, -⟩ := set_ok hset
  refine ⟨⟨scopes, tokenJson⟩, rfl, ⟨token, htokens _ _ htoken⟩, fun u => ?_⟩
  rw [hcache, List.mem_append, List.mem_singleton, mem_kept]

theorem answers_kept_iff (htokens : ParsedToken tokens)
    (hset : set tokens lists scopes token keyring failure s = (.ok (), s')) :
    (∀ required, Answered tokens lists s required → Answers tokens lists s' required) ↔
      NoBroader tokens s.cache scopes := by
  obtain ⟨own, hown, hreadable, hmem⟩ := mem_set_cache htokens hset
  simp only [answered_iff, answers_iff]
  constructor
  · intro h t ht hread hcovers
    -- the scopes of the token itself are asked for
    obtain ⟨u, hu, hucovers, -⟩ := h t.scopes ⟨t, ht, scopesCoveredBy_self t.scopes, hread⟩
    rcases (hmem u).1 hu with ⟨-, hfree⟩ | rfl
    · rw [scopesCoveredBy_trans hucovers hcovers] at hfree
      cases hfree
    · rwa [hown] at hucovers
  · rintro h required ⟨t, ht, hcovers, hread⟩
    cases hkept : scopesCoveredBy t.scopes scopes with
    | false => exact ⟨t, (hmem t).2 (.inl ⟨ht, hkept⟩), hcovers, hread⟩
    | true =>
      have hscopes := scopesCoveredBy_trans (h t ht hread hkept) hcovers
      exact ⟨own, (hmem own).2 (.inr rfl), hown ▸ hscopes, hreadable⟩

theorem replaces_same_iff (htokens : ParsedToken tokens)
    (hset : set tokens lists scopes token keyring failure s = (.ok (), s')) :
    (∀ t ∈ s.cache, Readable tokens t → t ∉ s'.cache → SameScopes t.scopes scopes) ↔
      NoBroader tokens s.cache scopes := by
  obtain ⟨own, hown, -, hmem⟩ := mem_set_cache htokens hset
  constructor
  · intro h t ht hread hcovers
    by_cases hkept : t ∈ s'.cache
    · rcases (hmem t).1 hkept with ⟨-, hfree⟩ | rfl
      · rw [hcovers] at hfree
        cases hfree
      · rw [hown]
        exact scopesCoveredBy_self scopes
    · exact (sameScopes_iff.1 (h t ht hread hkept)).2
  · intro h t ht hread hgone
    have hcovers : scopesCoveredBy t.scopes scopes = true := by
      rw [← Bool.not_eq_false]
      exact fun hfree => hgone ((hmem t).2 (.inl ⟨ht, hfree⟩))
    exact sameScopes_iff.2 ⟨hcovers, h t ht hread hcovers⟩

end

/-- What was answered once stays so through a history. -/
theorem answers_kept (htokens : ParsedToken tokens) {calls : List (SetCall T)} {s s' : SecureTokenStorage}
    (hcalls : setAll tokens lists s calls = some s') (hnever : NeverBroader tokens lists s calls)
    {required : List Str} (hanswered : Answered tokens lists s required) : Answers tokens lists s' required := by
  induction calls using List.reverseRecOn generalizing s' with
  | nil =>
    cases hcalls
    exact answers_iff.2 (answered_iff.1 hanswered)
  | append_singleton calls c ih =>
    obtain ⟨s₀, hbefore, hset⟩ := setAll_concat.1 hcalls
    have hans := ih hbefore fun before c hpre => hnever before c (hpre.trans (List.prefix_append _ _))
    exact (answers_kept_iff htokens hset).2 (hnever calls c (List.prefix_refl _) s₀ hbefore) required
      (answered_iff.2 (answers_iff.1 hans))

/-- For every storage, whatever calls have led to it: the scopes that a `get` has answered are answered after a
`set`, whatever the stores do then, exactly when no token of more scopes is in memory, and exactly then the tokens
that the `set` replaces are of its own scopes. So in a history where no `set` finds such a token nothing that was
answered is lost. -/
theorem set_keeps_access_iff (tokens : Json T) (lists : Json (List StoredToken)) (htokens : ParsedToken tokens) :
    (∀ scopes token keyring failure s s', set tokens lists scopes token keyring failure s = (.ok (), s') →
      ((∀ required, Answered tokens lists s required → Answers tokens lists s' required) ↔
        NoBroader tokens s.cache scopes) ∧
      ((∀ t ∈ s.cache, Readable tokens t → t ∉ s'.cache → SameScopes t.scopes scopes) ↔
        NoBroader tokens s.cache scopes)) ∧
    (∀ calls s s', setAll tokens lists s calls = some s' → NeverBroader tokens lists s calls →
      ∀ required, Answered tokens lists s required → Answers tokens lists s' required) :=
  ⟨fun _ _ _ _ _ _ hset => ⟨answers_kept_iff htokens hset, replaces_same_iff htokens hset⟩,
    fun _ _ _ hcalls hnever _ => answers_kept htokens hcalls hnever⟩

/-! ## The order of the tokens -/

/-- No token covers a later one. -/
def Uncovered (stored : List StoredToken) : Prop :=
  stored.Pairwise fun t later => scopesCoveredBy t.scopes later.scopes = false

theorem Uncovered.set {cache : List StoredToken} (h : Uncovered cache) (scopes : List Str) (tokenJson : Str) :
    Uncovered (kept scopes cache ++ [⟨scopes, tokenJson⟩]) := by
  refine List.pairwise_append.2 ⟨h.filter _, List.pairwise_singleton _ _, fun t ht later hlater => ?_⟩
  rw [List.mem_singleton] at hlater
  subst hlater
  exact (mem_kept.1 ht).2

/-- The token of a `set` is found for its scopes: none before it covers them. -/
theorem findToken_set (htokens : ParsedToken tokens) {scopes required : List Str} {token : T}
    {keyring : Option Str} {failure : Option WriteFailure} {s s' : SecureTokenStorage}
    (hset : set tokens lists scopes token keyring failure s = (.ok (), s')) (hsame : SameScopes required scopes) :
    findToken tokens s'.cache required = some token := by
  obtain ⟨tokenJson, -, htoken, -, -, hcache, -⟩ := set_ok hset
  obtain ⟨hrequired, hscopes⟩ := sameScopes_iff.1 hsame
  have hnone : findToken tokens (kept scopes s.cache) required = none := by
    rw [← Option.not_isSome_iff_eq_none, Option.isSome_iff_exists, exists_findToken]
    rintro ⟨t, ht, hcovers, -⟩
    have hfree := (mem_kept.1 ht).2
    rw [scopesCoveredBy_trans hcovers hrequired] at hfree
    cases hfree
  unfold findToken at hnone ⊢
  rw [hcache, List.findSome?_append, hnone, Option.none_or, List.findSome?_singleton, if_pos hscopes,
    htokens _ _ htoken]
  rfl

namespace Session

/-- The token is that of a `set`, and no `set` after it is for scopes that the token covers. -/
def SetLast (tokens : Json T) (cs : List (Call T)) (t : StoredToken) : Prop :=
  ∃ before token after, cs = before ++ .set t.scopes token :: after ∧ tokens.toString token = .ok t.tokenInfo ∧
    ∀ scopes' token', Call.set scopes' token' ∈ after → scopesCoveredBy t.scopes scopes' = false

theorem SetLast.concat {cs : List (Call T)} {t : StoredToken} (h : SetLast tokens cs t) {c : Call T}
    (hc : ∀ scopes token, c = .set scopes token → scopesCoveredBy t.scopes scopes = false) :
    SetLast tokens (cs ++ [c]) t := by
  obtain ⟨before, token, after, rfl, htoken, hafter⟩ := h
  refine ⟨before, token, after ++ [c], by rw [List.append_assoc, List.cons_append], htoken, ?_⟩
  intro scopes' token' hmem
  rcases List.mem_append.1 hmem with hmem | hmem
  · exact hafter scopes' token' hmem
  · exact hc scopes' token' (List.mem_singleton.1 hmem).symm

/-- What memory and the file have after the calls. -/
structure Ordered (tokens : Json T) (lists : Json (List StoredToken)) (cs : List (Call T)) (s : SecureTokenStorage) :
    Prop where
  synced : Synced lists s
  uncovered : Uncovered (fileTokens lists s.stores)
  last : ∀ t ∈ fileTokens lists s.stores, SetLast tokens cs t

theorem Ordered.cache {cs : List (Call T)} {s : SecureTokenStorage} (h : Ordered tokens lists cs s) :
    Uncovered s.cache ∧ ∀ t ∈ s.cache, SetLast tokens cs t := by
  rcases h.synced.cache with hnil | hfile
  · rw [hnil]
    exact ⟨.nil, fun t ht => absurd ht List.not_mem_nil⟩
  · rw [hfile]
    exact ⟨h.uncovered, h.last⟩

/-- A call that leaves the file as it was. -/
theorem Ordered.unwritten {cs : List (Call T)} {s s' : SecureTokenStorage} {c : Call T}
    (h : Ordered tokens lists cs s) (hsynced : Synced lists s') (hstores : s'.stores = s.stores)
    (hc : ∀ scopes token, c ≠ .set scopes token) : Ordered tokens lists (cs ++ [c]) s' := by
  refine ⟨hsynced, hstores ▸ h.uncovered, fun t ht => ?_⟩
  rw [hstores] at ht
  exact (h.last t ht).concat fun scopes token hset => absurd hset (hc scopes token)

theorem Ordered.set (hlists : Parsed lists) {cs : List (Call T)} {s s' : SecureTokenStorage} {scopes : List Str}
    {token : T} (h : Ordered tokens lists cs s)
    (hset : SecureTokenStorage.set tokens lists scopes token none none s = (.ok (), s')) :
    Ordered tokens lists (cs ++ [.set scopes token]) s' := by
  have hsynced := synced_set hlists h.synced hset
  obtain ⟨tokenJson, -, htoken, -, -, hcache, -⟩ := set_ok hset
  obtain ⟨huncovered, hlast⟩ := h.cache
  -- memory is not empty, so it is what the file has now
  have hfile : s'.cache = fileTokens lists s'.stores := by
    refine hsynced.cache.resolve_left fun hnil => ?_
    rw [hcache] at hnil
    exact List.append_ne_nil_of_right_ne_nil _ (List.cons_ne_nil _ []) hnil
  refine ⟨hsynced, ?_, fun t ht => ?_⟩
  · rw [← hfile, hcache]
    exact huncovered.set scopes tokenJson
  · rw [← hfile, hcache] at ht
    rcases List.mem_append.1 ht with ht | ht
    · obtain ⟨hmem, hfree⟩ := mem_kept.1 ht
      refine (hlast t hmem).concat fun scopes' token' heq => ?_
      cases heq
      exact hfree
    · rw [List.mem_singleton] at ht
      subst ht
      exact ⟨cs, token, [], rfl, htoken, fun _ _ hmem => absurd hmem List.not_mem_nil⟩

theorem run_ordered (hlists : Parsed lists) {cs : List (Call T)} {s : Session T}
    (h : run tokens lists (start none) cs = some s) : Ordered tokens lists cs s.storage := by
  induction cs using List.reverseRecOn generalizing s with
  | nil =>
    cases h
    exact ⟨⟨rfl, .inl rfl⟩, .nil, fun t ht => absurd ht List.not_mem_nil⟩
  | append_singleton cs c ih =>
    rw [run_concat] at h
    obtain ⟨s₀, hbefore, hstep⟩ := Option.bind_eq_some_iff.1 h
    have hordered := ih hbefore
    cases c with
    | restart =>
      cases hstep
      exact hordered.unwritten ⟨hordered.synced.backend, .inl rfl⟩ rfl fun _ _ h => by cases h
    | get scopes =>
      cases hstep
      obtain ⟨-, hstores, hsynced⟩ := get_synced tokens hordered.synced scopes
      exact hordered.unwritten hsynced hstores fun _ _ h => by cases h
    | set scopes token =>
      simp only [step] at hstep
      split at hstep
      · rename_i hset
        cases hstep
        exact hordered.set hlists hset
      · cases hstep

/-- The answer of a `get` was set for scopes that cover those asked for, and since then nothing was set for scopes
that these cover. -/
theorem Ordered.answer (htokens : ParsedToken tokens) {cs : List (Call T)} {s : SecureTokenStorage}
    (h : Ordered tokens lists cs s) {required : List Str} {token : T}
    (hget : (get tokens lists required none none s).1 = some token) :
    ∃ before scopes after, cs = before ++ .set scopes token :: after ∧ scopesCoveredBy scopes required = true ∧
      ∀ scopes' token', Call.set scopes' token' ∈ after → scopesCoveredBy scopes scopes' = false := by
  rw [(get_synced tokens h.synced required).1] at hget
  unfold findToken at hget
  obtain ⟨t, ht, hfound⟩ := List.exists_of_findSome?_eq_some hget
  split at hfound
  · rename_i hcovers
    obtain ⟨before, token', after, hcs, htoken, hafter⟩ := h.last t ht
    rw [htokens _ _ htoken] at hfound
    obtain rfl := Option.some.inj hfound
    exact ⟨before, t.scopes, after, hcs, hcovers, hafter⟩
  · cases hfound

/-- For every run of calls that succeed, with restarts: no token in memory covers a later one, and the token that a
`get` finds was set after every other token for the scopes asked for, in any order or repeated. And whatever the
storage is, the token of a `set` is the one that the `get` after it returns. -/
theorem stored_token_read_back (tokens : Json T) (lists : Json (List StoredToken)) (htokens : ParsedToken tokens)
    (hlists : Parsed lists) :
    (∀ cs s, run tokens lists (start none) cs = some s →
      Uncovered s.storage.cache ∧
      ∀ required token, (get tokens lists required none none s.storage).1 = some token →
        ∃ before scopes after, cs = before ++ .set scopes token :: after ∧ scopesCoveredBy scopes required = true ∧
          ∀ scopes' token', Call.set scopes' token' ∈ after →
            ¬ SameScopes scopes' scopes ∧ ¬ SameScopes scopes' required) ∧
    (∀ scopes token keyring failure s s',
      SecureTokenStorage.set tokens lists scopes token keyring failure s = (.ok (), s') →
      ∀ required, SameScopes required scopes → ∀ keyring₁ failure₁,
        (get tokens lists required keyring₁ failure₁ s').1 = some token) := by
  constructor
  · intro cs s hrun
    have hordered := run_ordered hlists hrun
    refine ⟨hordered.cache.1, fun required token hget => ?_⟩
    obtain ⟨before, scopes, after, hcs, hcovers, hafter⟩ := hordered.answer htokens hget
    refine ⟨before, scopes, after, hcs, hcovers, fun scopes' token' hmem => ?_⟩
    have hfree := hafter scopes' token' hmem
    constructor
    · intro hsame
      rw [(sameScopes_iff.1 hsame).2] at hfree
      cases hfree
    · intro hsame
      rw [scopesCoveredBy_trans hcovers (sameScopes_iff.1 hsame).2] at hfree
      cases hfree
  · intro scopes token keyring failure s s' hset required hsame keyring₁ failure₁
    exact congrArg Prod.fst (get_memory (findToken_set htokens hset hsame) keyring₁ failure₁)

end Session

end

/-! ## Samples of more scopes -/

/-- The JSON of a token, as a string of JSON with its scopes. -/
def scopedJson (scopes : String) (token : String) : Str :=
  "\x7b\"scopes\":[".toList ++ scopes.toList ++
    "],\"token_info\":\"\x7b\\\"access_token\\\":\\\"".toList ++ token.toList ++
    "\\\",\\\"refresh_token\\\":null,\\\"expires_at\\\":null,\\\"id_token\\\":null\x7d\"\x7d".toList

/-- A token of two scopes, and tokens of each of these. -/
def scopedLists : Json (List StoredToken) := Json.table
  [([⟨[['a'], ['b']], tokenJson "t1".toList⟩], "[".toList ++ scopedJson "\"a\",\"b\"" "t1" ++ "]".toList),
   ([⟨[['a']], tokenJson "t1".toList⟩], "[".toList ++ scopedJson "\"a\"" "t1" ++ "]".toList),
   ([⟨[['a']], tokenJson "t2".toList⟩], "[".toList ++ scopedJson "\"a\"" "t2" ++ "]".toList)]

theorem scopedLists_parsed : Parsed scopedLists := fun _ _ h => Json.table_parses (by decide +kernel) h

/-- A storage with a token for the scope `a`. -/
def storedFor (token : String) : SecureTokenStorage :=
  ⟨.file, [⟨[['a']], tokenJson token.toList⟩], none, some ("[".toList ++ scopedJson "\"a\"" token ++ "]".toList)⟩

/-- A token is refreshed: what it gave access to is not lost. -/
theorem set_keeps_access_sample :
    set sampleTokens scopedLists [['a']] (accessOnly "t2".toList) none none (storedFor "t1") =
        (.ok (), storedFor "t2") ∧
      ∀ required, Answered sampleTokens scopedLists (storedFor "t1") required →
        Answers sampleTokens scopedLists (storedFor "t2") required := by
  have hset : set sampleTokens scopedLists [['a']] (accessOnly "t2".toList) none none (storedFor "t1") =
      (.ok (), storedFor "t2") := by decide +kernel
  refine ⟨hset, (((set_keeps_access_iff sampleTokens scopedLists sampleTokens_parsed).1 _ _ none none _ _
    hset).1).2 fun t ht _ _ => ?_⟩
  obtain rfl := List.mem_singleton.1 ht
  exact scopesCoveredBy_self [['a']]

/-- The token of both scopes is removed for one of the first scope, and the second scope has none. -/
theorem broader_token_removed :
    (Session.run sampleTokens scopedLists (Session.start none)
        [.set [['a'], ['b']] (accessOnly "t1".toList), .get [['b']], .set [['a']] (accessOnly "t2".toList),
          .get [['b']]]).map Session.answers = some [some (accessOnly "t1".toList), none] := by
  decide +kernel

namespace Session

/-- The scope repeated. -/
theorem stored_token_sample : ∃ s s',
    run sampleTokens scopedLists (start none) [.set [['a']] (accessOnly "t1".toList), .restart] = some s ∧
      SecureTokenStorage.set sampleTokens scopedLists [['a']] (accessOnly "t2".toList) none none s.storage =
        (.ok (), s') ∧
      (get sampleTokens scopedLists [['a'], ['a']] none none s').1 = some (accessOnly "t2".toList) ∧
      Uncovered s.storage.cache := by
  have hok : (run sampleTokens scopedLists (start none) [.set [['a']] (accessOnly "t1".toList), .restart]).map
      (fun s => (SecureTokenStorage.set sampleTokens scopedLists [['a']] (accessOnly "t2".toList) none none
        s.storage).1) = some (.ok ()) := by decide +kernel
  obtain ⟨s, hs, hstored⟩ := Option.map_eq_some_iff.1 hok
  obtain ⟨hrun, hset⟩ := stored_token_read_back sampleTokens scopedLists sampleTokens_parsed scopedLists_parsed
  have hs' : SecureTokenStorage.set sampleTokens scopedLists [['a']] (accessOnly "t2".toList) none none s.storage =
      (.ok (), (SecureTokenStorage.set sampleTokens scopedLists [['a']] (accessOnly "t2".toList) none none
        s.storage).2) := Prod.ext hstored rfl
  refine ⟨s, _, hs, hs', hset _ _ _ _ _ _ hs' _ (fun x => ?_) none none, (hrun _ _ hs).1⟩
  simp

end Session

end CloudSync.SecureTokenStorage
