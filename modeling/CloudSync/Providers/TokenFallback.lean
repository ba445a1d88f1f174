/-
The keyring with a file to fall back to. A `set` writes one of the two stores and leaves the other as it was; a
`get` of a new process prefers the keyring. A store has the tokens that were in memory when it was written last,
so after a restart a token can be found that a later `set` has replaced in the other store.
-/
import CloudSync.Providers.TokenStorage

namespace CloudSync.SecureTokenStorage

open Ipc (Json)

/-- A `set`, with the failures of the keyring and of the file. -/
structure SetCall (T : Type) where
  scopes : List Str
  token : T
  keyring : Option Str
  file : Option WriteFailure

/-- Whether the keyring is there for the call. -/
def SetCall.available {T : Type} (c : SetCall T) : Bool := c.keyring.isNone

/-- A new storage that has stored nothing yet. -/
def withFallback : SecureTokenStorage := ⟨.keyringWithFallback, [], ⟨none, none⟩⟩

section

variable {T : Type} (tokens : Json T) (lists : Json (List StoredToken))

/-- Calls of `set`; nothing when one of them does not succeed. -/
def setAll (s : SecureTokenStorage) (calls : List (SetCall T)) : Option SecureTokenStorage :=
  calls.foldlM (fun s c => match set tokens lists c.scopes c.token c.keyring c.file s with
    | (.ok _, s') => some s'
    | (.error _, _) => none) s

end

variable {T : Type} {tokens : Json T} {lists : Json (List StoredToken)}

/-! ## The calls whose tokens are stored -/

/-- The calls whose tokens are in memory: a call replaces the tokens that cover its scopes. -/
def inMemory (calls : List (SetCall T)) : List (SetCall T) :=
  calls.foldl (fun memory c => memory.filter (fun c' => !scopesCoveredBy c'.scopes c.scopes) ++ [c]) []

/-- The calls up to the last one that wrote the store: the keyring, or the file. -/
def writing (available : Bool) (calls : List (SetCall T)) : List (SetCall T) :=
  calls.rdropWhile fun c => c.available != available

/-- The call whose token is the first one for the scopes in a store. -/
def firstStored (available : Bool) (calls : List (SetCall T)) (scopes : List Str) : Option (SetCall T) :=
  (inMemory (writing available calls)).find? fun c => scopesCoveredBy c.scopes scopes

theorem inMemory_concat (calls : List (SetCall T)) (c : SetCall T) :
    inMemory (calls ++ [c]) = (inMemory calls).filter (fun c' => !scopesCoveredBy c'.scopes c.scopes) ++ [c] := by
  unfold inMemory
  rw [List.foldl_append]
  rfl

theorem writing_concat (available : Bool) (calls : List (SetCall T)) (c : SetCall T) :
    writing available (calls ++ [c]) = if c.available = available then calls ++ [c] else writing available calls := by
  unfold writing
  rw [List.rdropWhile_concat]
  by_cases h : c.available = available
  · rw [if_pos h, if_neg (by simp [h])]
  · rw [if_neg h, if_pos (by simp [h])]

theorem writing_ne_nil {available : Bool} {calls : List (SetCall T)} {c : SetCall T} (h : c.available = available) :
    writing available (calls ++ [c]) ≠ [] := by
  rw [writing_concat, if_pos h]
  exact List.append_ne_nil_of_right_ne_nil calls (List.cons_ne_nil c [])

/-- The token of a call is the first one in memory for its scopes. -/
theorem find_inMemory (calls : List (SetCall T)) (last : SetCall T) :
    (inMemory (calls ++ [last])).find? (fun c => scopesCoveredBy c.scopes last.scopes) = some last := by
  have hnone : ((inMemory calls).filter fun c => !scopesCoveredBy c.scopes last.scopes).find?
      (fun c => scopesCoveredBy c.scopes last.scopes) = none := by
    rw [List.find?_eq_none]
    intro c hc
    have hkept := (List.mem_filter.1 hc).2
    rw [Bool.not_eq_true'] at hkept
    rw [hkept]
    exact Bool.false_ne_true
  rw [inMemory_concat, List.find?_append, hnone, Option.none_or, List.find?_singleton, scopesCoveredBy_self, if_pos rfl]

/-- The stored tokens are those of the calls. -/
def TokensOf (tokens : Json T) : List (SetCall T) → List StoredToken → Prop :=
  List.Forall₂ fun c t => t.scopes = c.scopes ∧ tokens.toString c.token = .ok t.tokenInfo

theorem TokensOf.concat {memory : List (SetCall T)} {cache : List StoredToken} (h : TokensOf tokens memory cache)
    (c : SetCall T) {tokenJson : Str} (htoken : tokens.toString c.token = .ok tokenJson) :
    TokensOf tokens (memory.filter (fun c' => !scopesCoveredBy c'.scopes c.scopes) ++ [c])
      (kept c.scopes cache ++ [⟨c.scopes, tokenJson⟩]) := by
  refine List.rel_append (List.rel_filter ?_ h) (.cons ⟨rfl, htoken⟩ .nil)
  rintro c' t ⟨hscopes, -⟩
  show (!scopesCoveredBy c'.scopes c.scopes) = true ↔ (!scopesCoveredBy t.scopes c.scopes) = true
  rw [hscopes]

/-- A token is read back from its JSON. -/
def ParsedToken (tokens : Json T) : Prop :=
  ∀ token text, tokens.toString token = .ok text → tokens.fromStr text = .ok token

theorem setAll_concat {s s' : SecureTokenStorage} {calls : List (SetCall T)} {c : SetCall T} :
    setAll tokens lists s (calls ++ [c]) = some s' ↔ ∃ s₀, setAll tokens lists s calls = some s₀ ∧
      set tokens lists c.scopes c.token c.keyring c.file s₀ = (.ok (), s') := by
  unfold setAll
  rw [List.foldlM_append, Option.bind_eq_bind, Option.bind_eq_some_iff]
  refine exists_congr fun s₀ => and_congr_right fun _ => ?_
  simp only [List.foldlM_cons, List.foldlM_nil, Option.bind_eq_bind, Option.pure_def]
  generalize set tokens lists c.scopes c.token c.keyring c.file s₀ = r
  obtain ⟨_ | ⟨⟩, s⟩ := r
  · simp
  · simp

/-- The token that is found is that of the first call for the scopes. -/
theorem TokensOf.findToken (htokens : ParsedToken tokens) {memory : List (SetCall T)} {cache : List StoredToken}
    (h : TokensOf tokens memory cache) (scopes : List Str) :
    findToken tokens cache scopes = (memory.find? fun c => scopesCoveredBy c.scopes scopes).map SetCall.token := by
  unfold SecureTokenStorage.findToken
  induction h with
  | nil => rfl
  | cons hct _ ih =>
    obtain ⟨hscopes, htoken⟩ := hct
    rw [List.findSome?_cons, List.find?_cons, hscopes]
    split
    · rename_i token hfound
      split at hfound
      · rename_i hcovered
        rw [htokens _ _ htoken] at hfound
        rw [hcovered]
        exact congrArg some (Option.some.inj hfound).symm
      · cases hfound
    · rename_i hfound
      split at hfound
      · rw [htokens _ _ htoken] at hfound
        cases hfound
      · rename_i hcovered
        rw [Bool.eq_false_iff.2 hcovered]
        exact ih

/-- What a `set` leaves in the stores: one of them has the tokens of memory, the other is as it was. -/
theorem storeToken_fallback {stores stores' : TokenStores} {keyring : Option Str} {file : Option WriteFailure}
    {text : Str} (h : stores.storeToken .keyringWithFallback keyring file text = (.ok (), stores')) :
    stores' = if keyring.isNone then { stores with entry := some text } else { stores with file := some text } := by
  unfold TokenStores.storeToken TokenStores.storeInKeyring at h
  cases keyring with
  | none =>
    cases h
    rfl
  | some message =>
    unfold TokenStores.storeInFile at h
    cases file with
    | some failure => cases h
    | none =>
      cases h
      rfl

/-- The text a process with the keyring, or without it, reads first. -/
def storeRead (available : Bool) (stores : TokenStores) : Option Str := if available then stores.entry else stores.file

theorem storeRead_storeToken {stores stores' : TokenStores} {keyring : Option Str} {file : Option WriteFailure}
    {text : Str} (h : stores.storeToken .keyringWithFallback keyring file text = (.ok (), stores')) (available : Bool) :
    storeRead available stores' = if keyring.isNone = available then some text else storeRead available stores := by
  rw [storeToken_fallback h]
  unfold storeRead
  cases keyring <;> cases available <;> rfl

/-- A token is found in what was retrieved. -/
theorem retrieved_of_found {r : Except TokenStorageError (Option Str)} {scopes : List Str} {token : T}
    (h : findToken tokens (readTokens lists r) scopes = some token) : ∃ text, r = .ok (some text) := by
  match r with
  | .ok (some text) => exact ⟨text, rfl⟩
  | .ok none => cases h
  | .error e => cases h

/-- A new process reads the store it prefers, if it can be read. -/
theorem retrieveToken_read {stores : TokenStores} {keyring file : Option Str} {text : Str}
    (h : storeRead keyring.isNone stores = some text) (hfile : keyring = none ∨ file = none) :
    stores.retrieveToken .keyringWithFallback keyring file = .ok (some text) := by
  unfold TokenStores.retrieveToken TokenStores.retrieveFromKeyring TokenStores.retrieveFromFile
  obtain ⟨entry, written⟩ := stores
  cases keyring with
  | some message =>
    rw [hfile.resolve_left (Option.some_ne_none _)]
    exact congrArg Except.ok h
  | none =>
    cases entry with
    | some value => exact congrArg Except.ok h
    | none => cases h

theorem readable_of_retrieved {stores : TokenStores} {keyring file : Option Str} {text : Str}
    (h : stores.retrieveToken .keyringWithFallback keyring file = .ok (some text)) : keyring = none ∨ file = none := by
  cases keyring with
  | none => exact .inl rfl
  | some message =>
    cases file with
    | none => exact .inr rfl
    | some failure => cases h

/-- Without an entry in the keyring it reads the file; where it would have read the file first, there is nothing. -/
theorem retrieveToken_unread {stores : TokenStores} {keyring file : Option Str} {text : Str}
    (h : storeRead keyring.isNone stores = none)
    (hretrieve : stores.retrieveToken .keyringWithFallback keyring file = .ok (some text)) :
    keyring = none ∧ storeRead false stores = some text := by
  unfold TokenStores.retrieveToken TokenStores.retrieveFromKeyring TokenStores.retrieveFromFile at hretrieve
  obtain ⟨entry, written⟩ := stores
  cases keyring with
  | some message =>
    cases file with
    | some failure => cases hretrieve
    | none =>
      rw [show written = none from h] at hretrieve
      cases hretrieve
  | none =>
    rw [show entry = none from h] at hretrieve
    cases file with
    | some failure => cases hretrieve
    | none => exact ⟨rfl, Except.ok.inj hretrieve⟩

/-! ## The stores after a sequence of calls -/

/-- Memory has the tokens of the calls, and each store those that memory had when it was written last. -/
structure Written (tokens : Json T) (lists : Json (List StoredToken)) (calls : List (SetCall T))
    (s : SecureTokenStorage) : Prop where
  backend : s.backend = .keyringWithFallback
  cache : TokensOf tokens (inMemory calls) s.cache
  stores : ∀ available, writing available calls = [] ∧ storeRead available s.stores = none ∨
    ∃ stored text, TokensOf tokens (inMemory (writing available calls)) stored ∧ lists.toString stored = .ok text ∧
      storeRead available s.stores = some text

theorem setAll_written {calls : List (SetCall T)} {s : SecureTokenStorage}
    (h : setAll tokens lists withFallback calls = some s) : Written tokens lists calls s := by
  induction calls using List.reverseRecOn generalizing s with
  | nil =>
    cases h
    refine ⟨rfl, .nil, fun available => .inl ⟨rfl, ?_⟩⟩
    cases available <;> rfl
  | append_singleton calls c ih =>
    obtain ⟨s₀, h₀, hset⟩ := setAll_concat.1 h
    obtain ⟨tokenJson, text, htoken, htext, hbackend, hcache, hstore⟩ := set_ok hset
    have hwritten := ih h₀
    rw [hwritten.backend] at hstore
    have hmemory : TokensOf tokens (inMemory (calls ++ [c])) (kept c.scopes s₀.cache ++ [⟨c.scopes, tokenJson⟩]) := by
      rw [inMemory_concat]
      exact hwritten.cache.concat c htoken
    refine ⟨hbackend.trans hwritten.backend, hcache ▸ hmemory, fun available => ?_⟩
    have hread : storeRead available s.stores = if c.available = available then some text
        else storeRead available s₀.stores := storeRead_storeToken hstore available
    rw [writing_concat, hread]
    by_cases hc : c.available = available
    · rw [if_pos hc, if_pos hc]
      exact .inr ⟨_, text, hmemory, htext, rfl⟩
    · rw [if_neg hc, if_neg hc]
      exact hwritten.stores available

/-- In the store that the last call has written its token is found. -/
theorem Written.last (htokens : ParsedToken tokens) (hlists : Parsed lists) {before : List (SetCall T)}
    {last : SetCall T} {s : SecureTokenStorage} (h : Written tokens lists (before ++ [last]) s) {text : Str}
    (hread : storeRead last.available s.stores = some text) :
    findToken tokens (readTokens lists (.ok (some text))) last.scopes = some last.token := by
  rcases h.stores last.available with ⟨hnil, -⟩ | ⟨stored, text', hstored, htext, hread'⟩
  · exact absurd hnil (writing_ne_nil rfl)
  · rw [hread] at hread'
    cases hread'
    rw [writing_concat, if_pos rfl] at hstored
    rw [readTokens_text (hlists _ _ htext), hstored.findToken htokens, find_inMemory]
    rfl

/-- After calls that all succeed and a restart with the keyring or without it: a `get` for the scopes of the last
call finds the token of that call or none, exactly when the first token for these scopes, of those in memory when
the store that is read was written last, is that token. -/
theorem finds_last_iff (tokens : Json T) (lists : Json (List StoredToken)) (htokens : ParsedToken tokens)
    (hlists : Parsed lists) (before : List (SetCall T)) (last : SetCall T) (s : SecureTokenStorage)
    (hset : setAll tokens lists withFallback (before ++ [last]) = some s) (keyring file : Option Str) :
    (∀ token, (get tokens lists last.scopes keyring file s.restarted).1 = some token → token = last.token) ↔
      (keyring = none ∨ file = none → ∀ c, firstStored keyring.isNone (before ++ [last]) last.scopes = some c →
        c.token = last.token) := by
  have hwritten := setAll_written hset
  rw [get_restarted, hwritten.backend]
  unfold firstStored
  rcases hwritten.stores keyring.isNone with ⟨hnil, hread⟩ | ⟨stored, text, hstored, htext, hread⟩
  · -- the store was never written: only the file can be found, which the last call has written then
    rw [hnil]
    refine iff_of_true (fun token hget => ?_) fun _ c hc => by cases hc
    obtain ⟨text, hretrieve⟩ := retrieved_of_found hget
    obtain ⟨rfl, hfile⟩ := retrieveToken_unread hread hretrieve
    have hlast : last.available = false := by
      rw [← Bool.not_eq_true]
      exact fun hlast => writing_ne_nil hlast hnil
    rw [hretrieve, hwritten.last htokens hlists (hlast ▸ hfile)] at hget
    exact (Option.some.inj hget).symm
  · by_cases hfile : keyring = none ∨ file = none
    · rw [retrieveToken_read hread hfile, readTokens_text (hlists _ _ htext), hstored.findToken htokens]
      simp only [hfile, true_implies, Option.map_eq_some_iff, forall_exists_index, and_imp, forall_apply_eq_imp_iff₂]
    · refine iff_of_true (fun token hget => ?_) fun h => absurd h hfile
      obtain ⟨text', hretrieve⟩ := retrieved_of_found hget
      exact absurd (readable_of_retrieved hretrieve) hfile

theorem sampleTokens_parsed : ParsedToken sampleTokens := fun _ _ h => Json.table_parses (by decide +kernel) h

/-- A call for the scope `a`. -/
def callFor (token : String) (keyring : Option Str) : SetCall TokenInfo :=
  ⟨[['a']], accessOnly token.toList, keyring, none⟩

/-- Two tokens that reach the keyring, and a restart with it. -/
theorem finds_last_sample : ∃ s,
    setAll sampleTokens sampleLists withFallback [callFor "t1" none, callFor "t2" none] = some s ∧
      ∀ token, (get sampleTokens sampleLists [['a']] none none s.restarted).1 = some token →
        token = accessOnly "t2".toList := by
  have hok : (setAll sampleTokens sampleLists withFallback [callFor "t1" none, callFor "t2" none]).isSome := by
    decide +kernel
  obtain ⟨s, hs⟩ := Option.isSome_iff_exists.1 hok
  refine ⟨s, hs, (finds_last_iff sampleTokens sampleLists sampleTokens_parsed sampleLists_parsed [callFor "t1" none]
    (callFor "t2" none) s hs none none).2 fun _ c hc => ?_⟩
  have hfirst : firstStored true [callFor "t1" none, callFor "t2" none] [['a']] = some (callFor "t2" none) := rfl
  cases hfirst.symm.trans hc
  rfl

/-- The first token reaches the keyring and the second one the file. With the keyring the first one is found. -/
theorem first_token_found :
    (setAll sampleTokens sampleLists withFallback
        [callFor "t1" none, callFor "t2" (some "locked".toList)]).map
        (fun s => (get sampleTokens sampleLists [['a']] none none s.restarted).1) =
      some (some (accessOnly "t1".toList)) := by
  decide +kernel

end CloudSync.SecureTokenStorage
