/-
`SecureTokenStorage`: OAuth tokens in memory, in an entry of the system keyring and in a file. A `set` writes
all tokens it has in memory over those of the backend, without reading these first; a `get` reads the backend
only when memory has no answer. So a restart can lose a token: the first `set` after it writes only what the
new instance has in memory. The JSON library, and what a token is, are parameters.
-/
import CloudSync.Ipc.Transport

namespace CloudSync

open Ipc (Json)

/-! ## The stores -/

inductive TokenStorageError
  | keyring (message : Str)
  | serialization (message : Str)
  | io (message : Str)
deriving DecidableEq

def TokenStorageError.toString : TokenStorageError → Str
  | .keyring message => "Keyring error: ".toList ++ message
  | .serialization message => "Serialization error: ".toList ++ message
  | .io message => "IO error: ".toList ++ message

/-- The kind of backend. The keyring entry and the file it names are those of `TokenStores`. -/
inductive StorageBackend
  | keyring
  | file
  | keyringWithFallback
deriving DecidableEq

/-- The keyring entry and the file of a backend, by their text. -/
structure TokenStores where
  entry : Option Str
  file : Option Str
deriving DecidableEq

/-- A failed write of a file: the error, and what the file has then. -/
structure WriteFailure where
  message : Str
  left : Option Str
deriving DecidableEq

namespace TokenStores

/-- The keyring answers, or fails with an error. -/
def storeInKeyring (keyring : Option Str) (value : Str) (s : TokenStores) :
    Except TokenStorageError Unit × TokenStores :=
  match keyring with
  | some message => (.error (.keyring message), s)
  | none => (.ok (), { s with entry := some value })

def retrieveFromKeyring (keyring : Option Str) (s : TokenStores) : Except TokenStorageError (Option Str) :=
  match keyring with
  | some message => .error (.keyring message)
  | none => .ok s.entry

def storeInFile (failure : Option WriteFailure) (value : Str) (s : TokenStores) :
    Except TokenStorageError Unit × TokenStores :=
  match failure with
  | some failure => (.error (.io failure.message), { s with file := failure.left })
  | none => (.ok (), { s with file := some value })

def retrieveFromFile (failure : Option Str) (s : TokenStores) : Except TokenStorageError (Option Str) :=
  match failure with
  | some message => .error (.io message)
  | none => .ok s.file

def storeToken (backend : StorageBackend) (keyring : Option Str) (failure : Option WriteFailure) (value : Str)
    (s : TokenStores) : Except TokenStorageError Unit × TokenStores :=
  match backend with
  | .keyring => s.storeInKeyring keyring value
  | .file => s.storeInFile failure value
  | .keyringWithFallback => match s.storeInKeyring keyring value with
    | (.ok (), s) => (.ok (), s)
    | (.error _, s) => s.storeInFile failure value

def retrieveToken (backend : StorageBackend) (keyring failure : Option Str) (s : TokenStores) :
    Except TokenStorageError (Option Str) :=
  match backend with
  | .keyring => s.retrieveFromKeyring keyring
  | .file => s.retrieveFromFile failure
  | .keyringWithFallback => match s.retrieveFromKeyring keyring with
    | .ok (some value) => .ok (some value)
    | .ok none | .error _ => s.retrieveFromFile failure

end TokenStores

/-! ## Tokens -/

/-- A token with its scopes; the token is the text of its JSON. -/
structure StoredToken where
  scopes : List Str
  tokenInfo : Str
deriving DecidableEq

def scopesCoveredBy (availableScopes requiredScopes : List Str) : Bool :=
  requiredScopes.all fun required => availableScopes.contains required

/-- The tokens a `set` for the scopes keeps. -/
def kept (scopes : List Str) (cache : List StoredToken) : List StoredToken :=
  cache.filter fun t => !scopesCoveredBy t.scopes scopes

theorem scopesCoveredBy_self (scopes : List Str) : scopesCoveredBy scopes scopes = true := by
  unfold scopesCoveredBy
  simp

theorem mem_kept {scopes : List Str} {cache : List StoredToken} {t : StoredToken} :
    t ∈ kept scopes cache ↔ t ∈ cache ∧ scopesCoveredBy t.scopes scopes = false := by
  unfold kept
  rw [List.mem_filter, Bool.not_eq_true']

/-- A storage: its backend, its tokens in memory, and the stores outside the process. -/
structure SecureTokenStorage where
  backend : StorageBackend
  cache : List StoredToken
  stores : TokenStores
deriving DecidableEq

namespace SecureTokenStorage

/-- A new process over the same stores. -/
def restarted (s : SecureTokenStorage) : SecureTokenStorage := { s with cache := [] }

section

variable {T : Type} (tokens : Json T) (lists : Json (List StoredToken))

/-- The first token that covers the scopes and can be read. -/
def findToken (stored : List StoredToken) (scopes : List Str) : Option T :=
  stored.findSome? fun t => if scopesCoveredBy t.scopes scopes then (tokens.fromStr t.tokenInfo).toOption else none

/-- `set`. The tokens in memory have changed even when they are not written. -/
def set (scopes : List Str) (token : T) (keyring : Option Str) (failure : Option WriteFailure)
    (s : SecureTokenStorage) : Except Str Unit × SecureTokenStorage :=
  match tokens.toString token with
  | .error e => (.error e, s)
  | .ok tokenJson =>
    let cache := kept scopes s.cache ++ [⟨scopes, tokenJson⟩]
    match lists.toString cache with
    | .error e => (.error e, { s with cache := cache })
    | .ok allTokensJson => match s.stores.storeToken s.backend keyring failure allTokensJson with
      | (.ok _, stores) => (.ok (), { s with cache := cache, stores := stores })
      | (.error e, stores) => (.error e.toString, { s with cache := cache, stores := stores })

def get (scopes : List Str) (keyring failure : Option Str) (s : SecureTokenStorage) : Option T × SecureTokenStorage :=
  match findToken tokens s.cache scopes with
  | some token => (some token, s)
  | none => match s.stores.retrieveToken s.backend keyring failure with
    | .ok (some json) => match lists.fromStr json with
      | .ok storedTokens => (findToken tokens storedTokens scopes, { s with cache := storedTokens })
      | .error _ => (none, s)
    | _ => (none, s)

/-- A list of tokens is read back from its JSON. -/
def Parsed (lists : Json (List StoredToken)) : Prop :=
  ∀ stored text, lists.toString stored = .ok text → lists.fromStr text = .ok stored

end

section

variable {T : Type} {tokens : Json T} {lists : Json (List StoredToken)}

/-- The tokens of what the backend returns. -/
def readTokens (lists : Json (List StoredToken)) : Except TokenStorageError (Option Str) → List StoredToken
  | .ok (some json) => (lists.fromStr json).toOption.getD []
  | _ => []

theorem readTokens_text {text : Str} {stored : List StoredToken} (h : lists.fromStr text = .ok stored) :
    readTokens lists (.ok (some text)) = stored := by
  show (lists.fromStr text).toOption.getD [] = stored
  rw [h]
  rfl

/-- What memory does not answer is looked up in the tokens of the backend. -/
theorem get_miss (lists : Json (List StoredToken)) {s : SecureTokenStorage} {scopes : List Str}
    (keyring failure : Option Str)
    (hmiss : findToken tokens s.cache scopes = none) :
    (get tokens lists scopes keyring failure s).1 =
        findToken tokens (readTokens lists (s.stores.retrieveToken s.backend keyring failure)) scopes ∧
      ((get tokens lists scopes keyring failure s).2 = s ∨ (get tokens lists scopes keyring failure s).2 =
        { s with cache := readTokens lists (s.stores.retrieveToken s.backend keyring failure) }) := by
  unfold get
  rw [hmiss]
  simp only
  cases s.stores.retrieveToken s.backend keyring failure with
  | error e => exact ⟨rfl, .inl rfl⟩
  | ok value =>
    cases value with
    | none => exact ⟨rfl, .inl rfl⟩
    | some json =>
      simp only [readTokens]
      cases lists.fromStr json with
      | error e => exact ⟨rfl, .inl rfl⟩
      | ok stored => exact ⟨rfl, .inr rfl⟩

/-- A new process answers from the tokens of the backend. -/
theorem get_restarted (s : SecureTokenStorage) (scopes : List Str) (keyring failure : Option Str) :
    (get tokens lists scopes keyring failure s.restarted).1 =
      findToken tokens (readTokens lists (s.stores.retrieveToken s.backend keyring failure)) scopes :=
  (get_miss lists keyring failure rfl).1

/-- A `set` that succeeds writes what it keeps of memory, and the new token. -/
theorem set_ok {s s' : SecureTokenStorage} {scopes : List Str} {token : T} {keyring : Option Str}
    {failure : Option WriteFailure} (h : set tokens lists scopes token keyring failure s = (.ok (), s')) :
    ∃ tokenJson text, tokens.toString token = .ok tokenJson ∧
      lists.toString (kept scopes s.cache ++ [⟨scopes, tokenJson⟩]) = .ok text ∧ s'.backend = s.backend ∧
      s'.cache = kept scopes s.cache ++ [⟨scopes, tokenJson⟩] ∧
      s.stores.storeToken s.backend keyring failure text = (.ok (), s'.stores) := by
  unfold set at h
  split at h
  · cases h
  · rename_i tokenJson htoken
    simp only at h
    split at h
    · cases h
    · rename_i text htext
      split at h
      · rename_i hstore
        cases h
        exact ⟨tokenJson, text, htoken, htext, rfl, rfl, hstore⟩
      · cases h

end

/-! ## Calls and restarts -/

/-- A call, with the stores at hand, or a restart of the process. -/
inductive Call (T : Type)
  | set (scopes : List Str) (token : T)
  | get (scopes : List Str)
  | restart
deriving DecidableEq

def Call.isRestart {T : Type} : Call T → Bool
  | .restart => true
  | _ => false

/-- A storage, and the answers of its `get` calls so far. -/
structure Session (T : Type) where
  storage : SecureTokenStorage
  answers : List (Option T)

namespace Session

section

variable {T : Type} (tokens : Json T) (lists : Json (List StoredToken))

/-- One call; nothing when a `set` does not succeed. -/
def step (s : Session T) : Call T → Option (Session T)
  | .set scopes token => match set tokens lists scopes token none none s.storage with
    | (.ok _, storage) => some { s with storage := storage }
    | (.error _, _) => none
  | .get scopes =>
    let (answer, storage) := get tokens lists scopes none none s.storage
    some ⟨storage, s.answers ++ [answer]⟩
  | .restart => some { s with storage := s.storage.restarted }

def run (s : Session T) (calls : List (Call T)) : Option (Session T) := calls.foldlM (step tokens lists) s

/-- A new storage with the file backend. -/
def start (file : Option Str) : Session T := ⟨⟨.file, [], ⟨none, file⟩⟩, []⟩

end

variable {T : Type} {tokens : Json T} {lists : Json (List StoredToken)}

theorem run_concat (s : Session T) (calls : List (Call T)) (c : Call T) :
    run tokens lists s (calls ++ [c]) = (run tokens lists s calls).bind fun s => step tokens lists s c := by
  unfold run
  rw [List.foldlM_append]
  simp

/-! ## What memory has of the file -/

/-- The tokens of the file. -/
def fileTokens (lists : Json (List StoredToken)) (stores : TokenStores) : List StoredToken :=
  readTokens lists (stores.retrieveFromFile none)

/-- Memory is empty, or has what the file has. -/
structure Synced (lists : Json (List StoredToken)) (s : SecureTokenStorage) : Prop where
  backend : s.backend = .file
  cache : s.cache = [] ∨ s.cache = fileTokens lists s.stores

/-- A `get` answers from the tokens of the file. -/
theorem get_synced (tokens : Json T) {s : SecureTokenStorage} (h : Synced lists s) (scopes : List Str) :
    (get tokens lists scopes none none s).1 = findToken tokens (fileTokens lists s.stores) scopes ∧
      (get tokens lists scopes none none s).2.stores = s.stores ∧
      Synced lists (get tokens lists scopes none none s).2 := by
  cases hfind : findToken tokens s.cache scopes with
  | some token =>
    have hget : get tokens lists scopes none none s = (some token, s) := by
      unfold get
      rw [hfind]
    rw [hget]
    refine ⟨?_, rfl, h⟩
    rcases h.cache with hnil | hcache
    · rw [hnil] at hfind
      cases hfind
    · rw [← hcache, hfind]
  | none =>
    obtain ⟨hanswer, hstorage⟩ := get_miss lists none none hfind
    rw [h.backend] at hanswer hstorage
    rcases hstorage with hstorage | hstorage
    · rw [hstorage]
      exact ⟨hanswer, rfl, h⟩
    · rw [hstorage]
      exact ⟨hanswer, rfl, ⟨rfl, .inr rfl⟩⟩

/-- The storages of both runs agree on the file, and their answers so far. -/
structure Alike (lists : Json (List StoredToken)) (plain restarted : Session T) : Prop where
  answers : plain.answers = restarted.answers
  stores : plain.storage.stores = restarted.storage.stores
  plain : Synced lists plain.storage
  restarted : Synced lists restarted.storage

theorem synced_set (hlists : Parsed lists) {s s' : SecureTokenStorage} {scopes : List Str} {token : T}
    (hs : Synced lists s) (h : set tokens lists scopes token none none s = (.ok (), s')) : Synced lists s' := by
  obtain ⟨tokenJson, text, -, htext, hbackend, hcache, hstore⟩ := set_ok h
  refine ⟨hbackend.trans hs.backend, .inr ?_⟩
  rw [hs.backend] at hstore
  have hfile : s'.stores.file = some text := congrArg (fun r => r.2.file) hstore.symm
  have hread : s'.stores.retrieveFromFile none = .ok (some text) := congrArg Except.ok hfile
  unfold fileTokens
  rw [hcache, hread, readTokens_text (hlists _ _ htext)]

/-- One call of both runs. A `set` keeps them alike when both keep the same tokens of their memory. -/
theorem Alike.step (hlists : Parsed lists) {plain restarted plain' restarted' : Session T} {c : Call T}
    (h : Alike lists plain restarted) (hnot : c ≠ .restart)
    (hkept : ∀ scopes token, c = .set scopes token →
      kept scopes plain.storage.cache = kept scopes restarted.storage.cache)
    (hplain : Session.step tokens lists plain c = some plain')
    (hrestarted : Session.step tokens lists restarted c = some restarted') : Alike lists plain' restarted' := by
  cases c with
  | restart => exact absurd rfl hnot
  | get scopes =>
    obtain ⟨hanswer, hstores, hsynced⟩ := get_synced tokens h.plain scopes
    obtain ⟨hanswer', hstores', hsynced'⟩ := get_synced tokens h.restarted scopes
    obtain rfl := Option.some.inj hplain
    obtain rfl := Option.some.inj hrestarted
    refine ⟨?_, hstores.trans (h.stores.trans hstores'.symm), hsynced, hsynced'⟩
    calc plain.answers ++ [(get tokens lists scopes none none plain.storage).1]
        = restarted.answers ++ [findToken tokens (fileTokens lists plain.storage.stores) scopes] := by
          rw [hanswer, h.answers]
      _ = restarted.answers ++ [(get tokens lists scopes none none restarted.storage).1] := by
          rw [hanswer', h.stores]
  | set scopes token =>
    simp only [Session.step] at hplain hrestarted
    split at hplain
    · rename_i _ storage hset
      split at hrestarted
      · rename_i _ storage' hset'
        cases hplain
        cases hrestarted
        refine ⟨h.answers, ?_, synced_set hlists h.plain hset, synced_set hlists h.restarted hset'⟩
        obtain ⟨tokenJson, text, htoken, htext, -, -, hstore⟩ := set_ok hset
        obtain ⟨tokenJson', text', htoken', htext', -, -, hstore'⟩ := set_ok hset'
        cases htoken.symm.trans htoken'
        rw [hkept scopes token rfl] at htext
        cases htext.symm.trans htext'
        rw [h.plain.backend] at hstore
        rw [h.restarted.backend, ← h.stores] at hstore'
        exact congrArg Prod.snd (hstore.symm.trans hstore')
      · cases hrestarted
    · cases hplain

theorem Alike.restart {plain restarted : Session T} (h : Alike lists plain restarted) :
    Alike lists plain { restarted with storage := restarted.storage.restarted } :=
  ⟨h.answers, h.stores, h.plain, h.restarted.backend, .inl rfl⟩

theorem start_alike (file : Option Str) : Alike (T := T) lists (start file) (start file) :=
  ⟨rfl, rfl, ⟨rfl, .inl rfl⟩, rfl, .inl rfl⟩

/-! ## Restarts -/

/-- The calls of a run without its restarts. -/
def calls (cs : List (Call T)) : List (Call T) := cs.filter fun c => !c.isRestart

/-- At every `set` the instance keeps the tokens of its memory that it would keep without the restarts. -/
def KeepsTokens (tokens : Json T) (lists : Json (List StoredToken)) (file : Option Str) (cs : List (Call T)) : Prop :=
  ∀ before scopes token, before ++ [.set scopes token] <+: cs →
    ∀ plain restarted, run tokens lists (start file) (calls before) = some plain →
      run tokens lists (start file) before = some restarted →
      kept scopes plain.storage.cache = kept scopes restarted.storage.cache

/-- The last call of a run, if it is a `set`, keeps these tokens. -/
def keepsLast (tokens : Json T) (lists : Json (List StoredToken)) (file : Option Str) (cs : List (Call T)) : Bool :=
  match cs.getLast? with
  | some (.set scopes _) =>
    match run tokens lists (start file) (calls cs.dropLast), run tokens lists (start file) cs.dropLast with
    | some plain, some restarted => decide (kept scopes plain.storage.cache = kept scopes restarted.storage.cache)
    | _, _ => true
  | _ => true

theorem keepsTokens_iff {file : Option Str} {cs : List (Call T)} :
    KeepsTokens tokens lists file cs ↔ ∀ before ∈ cs.inits, keepsLast tokens lists file before = true := by
  constructor
  · intro h l hl
    unfold keepsLast
    split
    · rename_i scopes token hlast
      obtain ⟨before, rfl⟩ := List.getLast?_eq_some_iff.1 hlast
      rw [List.dropLast_concat]
      split
      · rename_i plain restarted hplain hrestarted
        exact decide_eq_true (h before scopes token ((List.mem_inits _ _).1 hl) plain restarted hplain hrestarted)
      · rfl
    · rfl
  · intro h before scopes token hpre plain restarted hplain hrestarted
    have hlast := h _ ((List.mem_inits _ _).2 hpre)
    unfold keepsLast at hlast
    rw [List.getLast?_concat, List.dropLast_concat] at hlast
    simpa only [hplain, hrestarted, decide_eq_true_eq] using hlast

instance (tokens : Json T) (lists : Json (List StoredToken)) (file : Option Str) (cs : List (Call T)) :
    Decidable (KeepsTokens tokens lists file cs) := decidable_of_iff _ keepsTokens_iff.symm

theorem KeepsTokens.before {file : Option Str} {before cs : List (Call T)} (h : KeepsTokens tokens lists file cs)
    (hpre : before <+: cs) : KeepsTokens tokens lists file before :=
  fun front scopes token hfront => h front scopes token (hfront.trans hpre)

theorem calls_concat (cs : List (Call T)) (c : Call T) :
    calls (cs ++ [c]) = if c.isRestart then calls cs else calls cs ++ [c] := by
  unfold calls
  rw [List.filter_append]
  cases c with
  | restart => exact List.append_nil _
  | set scopes token => rfl
  | get scopes => rfl

theorem run_alike (hlists : Parsed lists) {file : Option Str} {cs : List (Call T)} {plain restarted : Session T}
    (hplain : run tokens lists (start file) (calls cs) = some plain)
    (hrestarted : run tokens lists (start file) cs = some restarted) (hkept : KeepsTokens tokens lists file cs) :
    Alike lists plain restarted := by
  induction cs using List.reverseRecOn generalizing plain restarted with
  | nil =>
    cases hplain
    cases hrestarted
    exact start_alike file
  | append_singleton cs c ih =>
    have hpre : cs <+: cs ++ [c] := List.prefix_append cs [c]
    rw [run_concat] at hrestarted
    obtain ⟨restarted₀, hrestarted₀, hstep⟩ := Option.bind_eq_some_iff.1 hrestarted
    rw [calls_concat] at hplain
    by_cases hc : c = .restart
    · subst hc
      obtain rfl := Option.some.inj hstep
      exact (ih hplain hrestarted₀ (hkept.before hpre)).restart
    · have hnot : c.isRestart = false := by
        cases c with
        | restart => exact absurd rfl hc
        | set scopes token => rfl
        | get scopes => rfl
      rw [hnot, if_neg Bool.false_ne_true, run_concat] at hplain
      obtain ⟨plain₀, hplain₀, hstep₀⟩ := Option.bind_eq_some_iff.1 hplain
      refine (ih hplain₀ hrestarted₀ (hkept.before hpre)).step hlists hc (fun scopes token hset => ?_) hstep₀ hstep
      subst hset
      exact hkept cs scopes token (List.prefix_refl _) plain₀ restarted₀ hplain₀ hrestarted₀

/-- For every sequence of `set` and `get` calls that succeed, over any file: restarts between them change no answer,
if every `set` keeps the tokens of the memory it would keep without them. -/
theorem restart_transparent (tokens : Json T) (lists : Json (List StoredToken)) (hlists : Parsed lists)
    (file : Option Str) (cs : List (Call T)) (plain restarted : Session T)
    (hplain : run tokens lists (start file) (calls cs) = some plain)
    (hrestarted : run tokens lists (start file) cs = some restarted) (hkept : KeepsTokens tokens lists file cs) :
    restarted.answers = plain.answers :=
  (run_alike hlists hplain hrestarted hkept).answers.symm

end Session

/-! ## A sample -/

structure TokenInfo where
  accessToken : Option Str
  refreshToken : Option Str
  expiresAt : Option Str
  idToken : Option Str
deriving DecidableEq

def accessOnly (token : Str) : TokenInfo := ⟨some token, none, none, none⟩

def tokenJson (token : Str) : Str :=
  "\x7b\"access_token\":\"".toList ++ token ++
    "\",\"refresh_token\":null,\"expires_at\":null,\"id_token\":null\x7d".toList

def sampleTokens : Json TokenInfo := Json.table
  [(accessOnly "t1".toList, tokenJson "t1".toList), (accessOnly "t2".toList, tokenJson "t2".toList)]

/-- The JSON of one of these tokens, as a string of JSON with its scope. -/
def storedJson (scope token : Str) : Str :=
  "\x7b\"scopes\":[\"".toList ++ scope ++ "\"],\"token_info\":\"\x7b\\\"access_token\\\":\\\"".toList ++ token ++
    "\\\",\\\"refresh_token\\\":null,\\\"expires_at\\\":null,\\\"id_token\\\":null\x7d\"\x7d".toList

def storedToken (scope token : Str) : StoredToken := ⟨[scope], tokenJson token⟩

def sampleLists : Json (List StoredToken) := Json.table
  [([storedToken ['a'] "t1".toList], "[".toList ++ storedJson ['a'] "t1".toList ++ "]".toList),
   ([storedToken ['a'] "t2".toList], "[".toList ++ storedJson ['a'] "t2".toList ++ "]".toList),
   ([storedToken ['b'] "t2".toList], "[".toList ++ storedJson ['b'] "t2".toList ++ "]".toList),
   ([storedToken ['a'] "t1".toList, storedToken ['b'] "t2".toList],
    "[".toList ++ storedJson ['a'] "t1".toList ++ ",".toList ++ storedJson ['b'] "t2".toList ++ "]".toList)]

theorem sampleLists_parsed : Parsed sampleLists := fun _ _ h => Json.table_parses (by decide +kernel) h

namespace Session

/-- A restart between the two tokens, with a `get` before the second one is set. -/
def readFirst : List (Call TokenInfo) :=
  [.set [['a']] (accessOnly "t1".toList), .restart, .get [['a']], .set [['b']] (accessOnly "t2".toList)]

/-- The same without the `get`. -/
def setFirst : List (Call TokenInfo) :=
  [.set [['a']] (accessOnly "t1".toList), .restart, .set [['b']] (accessOnly "t2".toList), .get [['a']]]

theorem restart_transparent_sample :
    ∃ plain restarted, run sampleTokens sampleLists (start none) (calls readFirst) = some plain ∧
      run sampleTokens sampleLists (start none) readFirst = some restarted ∧ restarted.answers = plain.answers := by
  have hplainOk : (run sampleTokens sampleLists (start none) (calls readFirst)).isSome := by decide +kernel
  have hrestartedOk : (run sampleTokens sampleLists (start none) readFirst).isSome := by decide +kernel
  obtain ⟨plain, hplain⟩ := Option.isSome_iff_exists.1 hplainOk
  obtain ⟨restarted, hrestarted⟩ := Option.isSome_iff_exists.1 hrestartedOk
  exact ⟨plain, restarted, hplain, hrestarted, restart_transparent sampleTokens sampleLists sampleLists_parsed none
    readFirst plain restarted hplain hrestarted (by decide +kernel)⟩

/-- The second `set` of the restarted process writes its own token only, and the first token is gone. -/
theorem first_token_lost :
    (run sampleTokens sampleLists (start none) (calls setFirst)).map answers = some [some (accessOnly "t1".toList)] ∧
      (run sampleTokens sampleLists (start none) setFirst).map answers = some [none] := by
  decide +kernel

end Session

end SecureTokenStorage

end CloudSync
