import RCloneCloud.Go.Basic

/-!
# `Storage.Basic` — the in-memory half of `MongoStorage`, and its field encryption

The accessors and the local calls work on the cache `data` alone. `encrypt` and `decrypt` lay a field out
as `nonce || ciphertext+tag`; AES-GCM itself is a parameter, `Gcm`, of which only the inversion law is
used. `aes.NewCipher` and `cipher.NewGCM` cannot fail here: the key is a SHA-256 digest, so it has the 32
bytes they accept.

`LocalCall` gathers the three calls that change the cache, so that later modules can follow a sequence of them without
naming each: a call concerns one section (`sec`), leaves the others alone (`apply_other`) and depends on that section
only (`apply_congr`).
-/

set_option autoImplicit false

namespace RCloneCloud

/-- A section: its keys and their values. -/
abbrev Section := GoMap GoString

/-- A configuration: `map[string]map[string]string`. -/
abbrev Config := GoMap Section

/-- A SHA-256 digest, used as an AES-256 key. -/
abbrev Key := { k : Bytes // k.length = 32 }

/-- `gcm.NonceSize()`. -/
def nonceSize : Nat := 12

/-- What `io.ReadFull(rand.Reader, nonce)` fills in. -/
abbrev Nonce := { n : Bytes // n.length = nonceSize }

/-- AES-GCM under a 32-byte key: `Open` gives back what `Seal` was given under the same key and nonce. -/
structure Gcm where
  sealBox : Key → Bytes → Bytes → Bytes
  openBox : Key → Bytes → Bytes → Except GoError Bytes
  open_seal : ∀ key nonce plaintext, nonce.length = nonceSize →
    openBox key nonce (sealBox key nonce plaintext) = .ok plaintext

/-- A stand-in for AES-GCM on concrete inputs: the ciphertext is the key, as its tag, and the plaintext;
    opening it under another key fails. -/
def tagGcm : Gcm where
  sealBox key _ plaintext := key.val ++ plaintext
  openBox key _ ciphertext :=
    if ciphertext.take 32 = key.val then .ok (ciphertext.drop 32)
    else .error (.external (str "cipher: message authentication failed"))
  open_seal key nonce plaintext _ := by
    obtain ⟨k, hk⟩ := key
    have htake : (k ++ plaintext).take 32 = k := by rw [← hk, List.take_left]
    have hdrop : (k ++ plaintext).drop 32 = plaintext := by rw [← hk, List.drop_left]
    simp [htake, hdrop]

/-- The key and the nonce of the concrete inputs below. -/
def sampleKey : Key := ⟨List.replicate 32 7, by decide⟩

/-- Twelve zero bytes, for the samples. -/
def sampleNonce : Nonce := ⟨List.replicate 12 1, by decide⟩

/-- The storage: the cache and the derived key. -/
structure MongoStorage where
  key : Key
  data : Config

/-! ## `encrypt` and `decrypt` -/

/-- `encrypt`, given what the random source returns for this call. -/
def encrypt (G : Gcm) (key : Key) (nonce : Except GoError Nonce) (plaintext : Bytes) :
    Except GoError Bytes :=
  match nonce with
  | .error err => .error err
  | .ok nonce => .ok (nonce.val ++ G.sealBox key nonce.val plaintext)

/-- `decrypt`. -/
def decrypt (G : Gcm) (key : Key) (data : Bytes) : Except GoError Bytes :=
  if data.length < nonceSize then
    .error (.errorf "ciphertext too short" [])
  else
    G.openBox key (data.take nonceSize) (data.drop nonceSize)

/-- **Decryption inverts encryption**, whatever nonce was drawn. -/
theorem decrypt_encrypt {G : Gcm} {key : Key} {nonce : Except GoError Nonce} {plaintext c : Bytes}
    (h : encrypt G key nonce plaintext = .ok c) : decrypt G key c = .ok plaintext := by
  cases nonce with
  | error err => cases h
  | ok nonce =>
      cases h
      obtain ⟨n, hlen⟩ := nonce
      have htake : (n ++ G.sealBox key n plaintext).take nonceSize = n := by
        rw [← hlen, List.take_left]
      have hdrop : (n ++ G.sealBox key n plaintext).drop nonceSize = G.sealBox key n plaintext := by
        rw [← hlen, List.drop_left]
      unfold decrypt
      rw [if_neg (by simp [hlen]), htake, hdrop]
      exact G.open_seal key n plaintext hlen

namespace MongoStorage

/-! ## Accessors -/

/-- Whether the cache has a section of this name, with or without keys. -/
def hasSection (s : MongoStorage) (sec : GoString) : Bool := s.data.contains sec

/-- `GetSectionList`, the map being visited in the order `sh`. -/
def getSectionList (s : MongoStorage) (sh : Lib.Shuffle GoString) : List GoString :=
  sh.apply s.data.keys

/-- `GetKeyList`; `none` is the nil slice of a missing section. -/
def getKeyList (s : MongoStorage) (sh : Lib.Shuffle GoString) (sec : GoString) :
    Option (List GoString) :=
  match s.data[sec]? with
  | none => none
  | some kv => some (sh.apply kv.keys)

/-- The value of a key and whether there is one; for a missing section or key the empty text and false. -/
def getValue (s : MongoStorage) (sec key : GoString) : GoString × Bool :=
  match s.data[sec]? with
  | none => ([], false)
  | some kv =>
    match kv[key]? with
    | some v => (v, true)
    | none => ([], false)

/-! ## Local calls -/

/-- Sets a key, making its section where there is none. -/
def setValue (s : MongoStorage) (sec key value : GoString) : MongoStorage :=
  { s with data := s.data.insert sec ((s.data[sec]?.getD ∅).insert key value) }

/-- `DeleteKey`; a section that loses its last key goes with it. -/
def deleteKey (s : MongoStorage) (sec key : GoString) : Bool × MongoStorage :=
  match s.data[sec]? with
  | none => (false, s)
  | some kv =>
    if key ∈ kv then
      (true, { s with data :=
        if (kv.erase key).isEmpty then s.data.erase sec else s.data.insert sec (kv.erase key) })
    else (false, s)

/-- Removes a section with all its keys. -/
def deleteSection (s : MongoStorage) (sec : GoString) : MongoStorage :=
  { s with data := s.data.erase sec }

end MongoStorage

/-- A call by which the owning process changes its cache. -/
inductive LocalCall where
  | setValue (sec key value : GoString)
  | deleteKey (sec key : GoString)
  | deleteSection (sec : GoString)
deriving DecidableEq

namespace LocalCall

/-- The section the call is on. -/
def sec : LocalCall → GoString
  | .setValue sec _ _ => sec
  | .deleteKey sec _ => sec
  | .deleteSection sec => sec

/-- The cache after a local call. -/
def apply (e : LocalCall) (s : MongoStorage) : MongoStorage :=
  match e with
  | .setValue sec key value => s.setValue sec key value
  | .deleteKey sec key => (s.deleteKey sec key).2
  | .deleteSection sec => s.deleteSection sec

@[simp] theorem apply_key (e : LocalCall) (s : MongoStorage) : (e.apply s).key = s.key := by
  cases e with
  | setValue sec key value => rfl
  | deleteKey sec key =>
      simp only [apply, MongoStorage.deleteKey]
      split
      · rfl
      · split <;> rfl
  | deleteSection sec => rfl

/-- A local call leaves every other section alone. -/
theorem apply_other (e : LocalCall) (s : MongoStorage) {sec : GoString} (h : e.sec ≠ sec) :
    (e.apply s).data[sec]? = s.data[sec]? := by
  cases e with
  | setValue sec' key value =>
      have hne : sec' ≠ sec := h
      simp only [apply, MongoStorage.setValue, GoMap.getElem?_insert, if_neg hne]
  | deleteKey sec' key =>
      have hne : sec' ≠ sec := h
      simp only [apply, MongoStorage.deleteKey]
      split
      · rfl
      · split
        · dsimp only
          split
          · rw [GoMap.getElem?_erase, if_neg hne]
          · rw [GoMap.getElem?_insert, if_neg hne]
        · rfl
  | deleteSection sec' =>
      have hne : sec' ≠ sec := h
      simp only [apply, MongoStorage.deleteSection, GoMap.getElem?_erase, if_neg hne]

/-- What a local call makes of its section depends on that section alone. -/
theorem apply_congr (e : LocalCall) {s t : MongoStorage} (h : s.data[e.sec]? = t.data[e.sec]?) :
    (e.apply s).data[e.sec]? = (e.apply t).data[e.sec]? := by
  cases e with
  | setValue sec' key value =>
      have h' : s.data[sec']? = t.data[sec']? := h
      simp [apply, MongoStorage.setValue, sec, h']
  | deleteKey sec' key =>
      have h' : s.data[sec']? = t.data[sec']? := h
      simp only [apply, MongoStorage.deleteKey, sec, h']
      cases ht : t.data[sec']? with
      | none => simpa [ht] using h'
      | some kv =>
          dsimp only
          split
          · dsimp only
            split <;> simp
          · exact h'
  | deleteSection sec' => simp [apply, MongoStorage.deleteSection, sec]

end LocalCall

end RCloneCloud
