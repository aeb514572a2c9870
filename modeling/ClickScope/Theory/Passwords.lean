import ClickScope.Core.Schemas
import ClickScope.Core.LinkService
import ClickScope.Theory.SecondParse

/-!
# Which Passwords Open the Gate

The passwords that verify against the hash of a password that was set.

The hash looks at the first 72 bytes of the UTF-8 encoding. The schema of a
link's password counts characters, and in UTF-16 units, up to 72 of them; the
schema of an account's password has no upper bound, and neither has the schema
of a password that is tried. A password of at most 71 bytes is told apart from
every other text by its first 72 bytes, its end included. From 72 bytes on
nothing after them matters, and every longer text with the same beginning
opens the gate too.

## Main definitions

* `firstBytes`, `Truncates`: What the hash looks at.
* `Gate`, `Settable`, `Triable`: The passwords the two pairs of schemas take.
* `Verdict`: Hashing one password and verifying another.

## Theorems

* `firstBytes_short`: A short password is told apart from every other text.
* `longer_opens`: A long one opens with anything after it.
* `only_password_opens_iff`: Only the password that was set opens the gate,
  exactly if it has at most 71 bytes.
* `longer_password_opens`: A longer password that opens a link.
-/

namespace ClickScope

open Async Zod

/-- The bytes of a password the hash looks at. -/
def firstBytes (s : String) : List UInt8 := s.toByteArray.data.toList.take 72

/-- The hash library compares the first 72 bytes. -/
def Truncates (b : Bcrypt) : Prop :=
  ∀ w p salt, b.compare w (b.hash p salt) = true ↔ firstBytes w = firstBytes p

/-- The two places a password is set and tried: a link, and an account. -/
inductive Gate : Type
  | link
  | account
deriving DecidableEq, Repr

/-- The body of the two account routes. -/
def credentials (email password : String) : JsValue :=
  .object [("email", .string email), ("password", .string password)]

/-- The passwords that can be set, by the schema they are set through. -/
def Settable (H : Host) : Gate → String → Prop
  | .link, p => ∃ t, safeParse linkPasswordSchema t (.string p) = some (.success (.string p))
  | .account, p => ∃ t email y,
      safeParse (signupSchema H) t (credentials email p) = some (.success y)

/-- The passwords that can be tried, by the schema they are tried through. -/
def Triable (H : Host) : Gate → String → Prop
  | .link, w => ∃ t y,
      safeParse unlockBodySchema t (.object [("password", .string w)]) = some (.success y)
  | .account, w => ∃ t email y,
      safeParse (loginSchema H) t (credentials email w) = some (.success y)

/-- `verifyPassword` of the one password against a hash `hashPassword` made of
    the other, whatever else happens in the world and in between. -/
def Verdict (P : Platform) (p w : String) (valid : Bool) : Prop :=
  ∃ tid chs w₀ hash w₁ tid' chs' w₂ w₃,
    (hashPassword p).seqRun (exec P tid) chs w₀ = some (.ok hash, w₁) ∧
    (verifyPassword w hash).seqRun (exec P tid') chs' w₂ = some (.ok valid, w₃)

section Bytes

variable {p w : String}

theorem length_bytes (s : String) : s.toByteArray.data.toList.length = s.utf8ByteSize := rfl

theorem bytes_inj (h : w.toByteArray.data.toList = p.toByteArray.data.toList) : w = p := by
  have hdata : w.toByteArray.data = p.toByteArray.data := Array.toList_inj.mp h
  exact String.toByteArray_inj.mp (ByteArray.ext hdata)

/-- A password with room to spare is told apart from every other text. -/
theorem firstBytes_short (hp : p.utf8ByteSize ≤ 71) : firstBytes w = firstBytes p ↔ w = p := by
  refine ⟨fun h => ?_, fun h => by rw [h]⟩
  -- All bytes of the password that was set are looked at.
  have hall : firstBytes p = p.toByteArray.data.toList :=
    List.take_of_length_le (by rw [length_bytes]; omega)
  have hlen := congrArg List.length h
  rw [hall, length_bytes] at hlen
  unfold firstBytes at hlen
  rw [List.length_take, length_bytes] at hlen
  -- The tried text has no more bytes either, so it is compared as a whole.
  have hw : w.utf8ByteSize ≤ 71 := by omega
  have hall' : firstBytes w = w.toByteArray.data.toList :=
    List.take_of_length_le (by rw [length_bytes]; omega)
  rw [hall, hall'] at h
  exact bytes_inj h

/-- Of a password of 72 bytes nothing that follows is looked at. -/
theorem firstBytes_append (hp : 72 ≤ p.utf8ByteSize) (x : String) :
    firstBytes (p ++ x) = firstBytes p := by
  unfold firstBytes
  have hbytes : (p ++ x).toByteArray.data.toList
      = p.toByteArray.data.toList ++ x.toByteArray.data.toList := by
    rw [String.toByteArray_append, ByteArray.data_append, Array.toList_append]
  rw [hbytes, List.take_append_of_le_length]
  rw [length_bytes]
  exact hp

end Bytes

section Gates

variable {H : Host} {P : Platform} {p w : String}

/-- A verdict is the library's. -/
theorem verdict_iff {valid : Bool} :
    Verdict P p w valid ↔ ∃ salt, P.bcrypt.compare w (P.bcrypt.hash p salt) = valid := by
  constructor
  · rintro ⟨tid, chs, w₀, hash, w₁, tid', chs', w₂, w₃, hhash, hverify⟩
    -- Each of the two programs performs one operation of the library.
    rcases Prog.seqRun_await _ hhash with ⟨ch, rest, h, u, _, hx, hrest⟩
    rcases Prog.seqRun_await _ hverify with ⟨ch', rest', v, u', _, hx', hrest'⟩
    simp only [exec, Option.some.injEq, Prod.mk.injEq] at hx hx'
    have hhash' := (Prod.mk.inj (Prog.seqRun_ret _ hrest).2).1
    have hvalid := (Prod.mk.inj (Prog.seqRun_ret _ hrest').2).1
    rw [Except.ok.injEq] at hhash' hvalid
    refine ⟨ch.draw, ?_⟩
    rw [hx.1, ← hhash', hx'.1, ← hvalid]
  · rintro ⟨salt, rfl⟩
    exact ⟨0, [{ draw := salt }], emptyWorld, _, emptyWorld, 0, [{}], emptyWorld, emptyWorld,
      rfl, rfl⟩

theorem jsLength_append (s x : String) : jsLength (s ++ x) = jsLength s + jsLength x := by
  unfold jsLength
  rw [String.toList_append, List.map_append, List.sum_append]

theorem runChecks_min {n : Nat} {message : String} :
    runChecks [Zod.min n message] w = [] ↔ n ≤ jsLength w := by
  simp only [runChecks_nil, Zod.min, List.mem_singleton, forall_eq, decide_eq_true_eq]

/-- Whatever has a character can be tried on a link. -/
theorem triable_link (h : 1 ≤ jsLength w) : Triable H .link w := by
  refine ⟨0, .object [("password", .string w)], safeParse_success.mpr (accepts_object.mpr
    ⟨_, _, rfl, rfl, parseShape_cons.mpr ⟨.string w, [], ?_, rfl, rfl⟩, ?_⟩)⟩
  · exact accepts_string.mpr ⟨w, rfl, rfl, runChecks_min.mpr h⟩
  · exact unrecognized_nil (fun key hkey => hkey)

/-- A longer password can be tried wherever the shorter one can be set. -/
theorem triable_append (g : Gate) (hp : Settable H g p) {x : String} (hx : 1 ≤ jsLength x) :
    Triable H g (p ++ x) := by
  have hlen : 1 ≤ jsLength (p ++ x) := by
    rw [jsLength_append]
    omega
  cases g with
  | link => exact triable_link hlen
  | account =>
      -- The email was accepted when the password was set.
      rcases hp with ⟨t, email, y, hset⟩
      rcases accepts_object.mp (safeParse_success.mp hset) with ⟨fields, out, hbody, _, hshape, _⟩
      rw [credentials, JsValue.object.injEq] at hbody
      subst hbody
      rcases parseShape_cons.mp hshape with ⟨a, rest, hemail, _, _⟩
      refine ⟨t, email, .object [("email", a), ("password", .string (p ++ x))],
        safeParse_success.mpr (accepts_object.mpr ⟨_, _, rfl, rfl, ?_, rfl⟩)⟩
      refine parseShape_cons.mpr ⟨a, [("password", .string (p ++ x))], hemail, ?_, ?_⟩
      · exact parseShape_cons.mpr ⟨.string (p ++ x), [],
          accepts_string.mpr ⟨p ++ x, rfl, rfl, runChecks_min.mpr hlen⟩, rfl, rfl⟩
      · rcases accepts_string.mp hemail with ⟨e, _, rfl, _⟩
        rfl

/-- A password of 72 bytes or more opens with anything after it. -/
theorem longer_opens (hb : Truncates P.bcrypt) (hp : 72 ≤ p.utf8ByteSize) (x : String) :
    Verdict P p (p ++ x) true :=
  verdict_iff.mpr ⟨"", (hb _ _ _).mpr (firstBytes_append hp x)⟩

end Gates

/-- A text with something after it is another one. -/
theorem append_a_ne (p : String) : p ++ "a" ≠ p := by
  intro h
  have hlen := congrArg String.utf8ByteSize h
  rw [String.utf8ByteSize_append] at hlen
  -- It has one byte more.
  have ha : "a".utf8ByteSize = 1 := by decide
  omega

/-- Among the passwords that can be tried, exactly the one that was set opens
    the gate, exactly if its encoding has at most 71 bytes. -/
theorem only_password_opens_iff (P : Platform) (H : Host) (hb : Truncates P.bcrypt) (g : Gate)
    (p : String) (hp : Settable H g p) :
    (∀ w, Triable H g w → ∀ valid, Verdict P p w valid → (valid = true ↔ w = p)) ↔
      p.utf8ByteSize ≤ 71 := by
  constructor
  · intro honly
    -- Otherwise the password with one more character opens the gate.
    by_contra hlong
    have hopens := longer_opens hb (by omega : 72 ≤ p.utf8ByteSize) "a"
    have htry : Triable H g (p ++ "a") := triable_append g hp (by decide)
    exact append_a_ne p ((honly _ htry true hopens).mp rfl)
  · intro hshort w _ valid hv
    rcases verdict_iff.mp hv with ⟨salt, rfl⟩
    rw [hb w p salt, firstBytes_short hshort]

/-- A byte as a character that can be stored. -/
def byteChar (b : UInt8) : Char := Char.ofNat (b.toNat + 1)

theorem byteChar_toNat (b : UInt8) : (byteChar b).toNat = b.toNat + 1 := by
  have hlt : b.toNat < 256 := b.toNat_lt
  have hvalid : (b.toNat + 1).isValidChar := Or.inl (by omega)
  unfold byteChar Char.ofNat
  rw [dif_pos hvalid]
  rfl

theorem byteChar_inj {a b : UInt8} (h : byteChar a = byteChar b) : a = b := by
  have hnat := congrArg Char.toNat h
  rw [byteChar_toNat, byteChar_toNat, Nat.add_right_cancel_iff] at hnat
  exact UInt8.toNat_inj.mp hnat

/-- The marked first bytes of a password. -/
def truncatedHash (plain : String) : String :=
  String.ofList ('$' :: (firstBytes plain).map byteChar)

theorem truncatedHash_inj {w p : String} (h : truncatedHash w = truncatedHash p) :
    firstBytes w = firstBytes p := by
  have hlist := congrArg String.toList h
  rw [truncatedHash, truncatedHash, String.toList_ofList, String.toList_ofList,
    List.cons_inj_right] at hlist
  exact List.map_injective_iff.mpr (fun _ _ hb => byteChar_inj hb) hlist

/-- A hash that compares the first 72 bytes and no more. -/
def truncatingBcrypt : Bcrypt where
  hash plain _ := truncatedHash plain
  compare plain hash := hash == truncatedHash plain
  hash_ne_empty plain _ h := by
    have hlist := congrArg String.toList h
    rw [truncatedHash, String.toList_ofList] at hlist
    exact absurd hlist (List.cons_ne_nil _ _)
  hash_no_nul plain _ c hc := by
    rw [truncatedHash, String.toList_ofList, List.mem_cons, List.mem_map] at hc
    rcases hc with rfl | ⟨b, _, rfl⟩
    · decide
    · intro heq
      have hnat := congrArg Char.toNat heq
      rw [byteChar_toNat] at hnat
      have hzero : (Char.ofNat 0).toNat = 0 := by decide
      omega

theorem truncates_truncatingBcrypt : Truncates truncatingBcrypt := by
  intro w p salt
  have hcompare : truncatingBcrypt.compare w (truncatingBcrypt.hash p salt) = true ↔
      truncatedHash p = truncatedHash w := beq_iff_eq
  rw [hcompare]
  refine ⟨fun h => (truncatedHash_inj h).symm, fun h => ?_⟩
  unfold truncatedHash
  rw [h]

/-- The sample platform with that hash. -/
def truncatingPlatform : Platform := { samplePlatform with bcrypt := truncatingBcrypt }

theorem only_password_opens_iff_short :
    (∀ w, Triable sampleHost .link w → ∀ valid, Verdict truncatingPlatform "hunter2" w valid →
      (valid = true ↔ w = "hunter2")) ↔ "hunter2".utf8ByteSize ≤ 71 :=
  only_password_opens_iff truncatingPlatform sampleHost truncates_truncatingBcrypt .link "hunter2"
    ⟨0, rfl⟩

/-- A password of 72 characters, the most a link can have. -/
def longPassword : String := String.ofList (List.replicate 72 'a')

/-- One character more opens the link as well. -/
theorem longer_password_opens : ¬ ∀ (P : Platform) (H : Host) (g : Gate) (p w : String),
    Truncates P.bcrypt → Settable H g p → Triable H g w →
    ∀ valid, Verdict P p w valid → (valid = true ↔ w = p) := by
  intro hall
  have hset : Settable sampleHost .link longPassword := ⟨0, rfl⟩
  have hlong : 72 ≤ longPassword.utf8ByteSize := by decide
  have htry : Triable sampleHost .link (longPassword ++ "a") :=
    triable_append .link hset (by decide)
  have hopens : Verdict truncatingPlatform longPassword (longPassword ++ "a") true :=
    longer_opens truncates_truncatingBcrypt hlong "a"
  exact append_a_ne longPassword ((hall truncatingPlatform sampleHost .link longPassword _
    truncates_truncatingBcrypt hset htry true hopens).mp rfl)

end ClickScope
