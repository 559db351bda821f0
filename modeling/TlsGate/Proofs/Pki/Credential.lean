import TlsGate.Pki.Credential
import TlsGate.Pki.PemLines
import TlsGate.Proofs.Except
import TlsGate.Proofs.Pki.Armour

/-!
What is loaded as a credential. It is what two files hold at the moments at which they are read: the
certificates of the one in their order, and the private key of the other, which belongs to the first
of the certificates.
-/

set_option autoImplicit false
set_option relaxedAutoImplicit false

namespace TlsGate.Pki

open Config

def Certificate.AreThoseOf (file : Bytes) (certificates : List Certificate) : Prop :=
  ∃ blocks, Pem.blocks file = some blocks ∧
    List.Forall₂ (fun (b : Pem.Block) c => ofDer b.contents = .ok c)
      (blocks.filter (labels.contains ·.label)) certificates

theorem Certificate.allOfPem_eq_ok_iff {file : Bytes} {leaf : Certificate}
    {others : List Certificate} :
    allOfPem file = .ok (leaf, others) ↔ AreThoseOf file (leaf :: others) := by
  unfold allOfPem AreThoseOf
  cases Pem.blocks file with
  | none => simp
  | some blocks =>
    simp only [Option.some.injEq, exists_eq_left', bind_eq_ok_iff, ← mapM_eq_ok_iff]
    constructor
    · rintro ⟨found, hfound, h⟩
      cases found with
      | nil => cases h
      | cons c found =>
        obtain ⟨rfl, rfl⟩ := Prod.mk.inj (Except.ok.inj h)
        exact hfound
    · intro hfound
      exact ⟨leaf :: others, hfound, rfl⟩

namespace Credential

variable {certPath keyPath path : Str} {certFile keyFile file : Bytes} {c : Credential}

theorem readChain_eq_ok_iff {leaf : Certificate} {others : List Certificate} :
    readChain path file = .ok (leaf, others) ↔ Certificate.allOfPem file = .ok (leaf, others) := by
  unfold readChain
  split <;> simp_all

section Reading

variable [KeyLibrary]

/-- A credential is what two files hold. -/
structure IsOf (certFile keyFile : Bytes) (c : Credential) : Prop where
  chain : Certificate.AreThoseOf certFile c.chain
  key : KeyLibrary.privateKey keyFile = .ok c.key
  paired : c.leaf.publicKey = .ok c.key.publicKey

theorem readKey_eq_ok_iff {key : PrivateKey} :
    readKey path file = .ok key ↔ KeyLibrary.privateKey file = .ok key := by
  unfold readKey
  split <;> simp_all

private theorem ofFiles_eq_ok_iff :
    ofFiles certPath keyPath certFile keyFile = .ok c ↔
      c.IsOf certFile keyFile ∧ c.certPath = certPath ∧ c.keyPath = keyPath := by
  unfold ofFiles
  simp only [bind_eq_ok_iff, Prod.exists, readChain_eq_ok_iff, readKey_eq_ok_iff,
    Certificate.allOfPem_eq_ok_iff]
  constructor
  · rintro ⟨leaf, others, hchain, key, hkey, h⟩
    split at h
    · cases h
    · rename_i found hfound
      split at h
      · rename_i hsame
        obtain rfl := Except.ok.inj h
        exact ⟨⟨hchain, hkey, hfound.trans (congrArg Except.ok hsame)⟩, rfl, rfl⟩
      · cases h
  · rintro ⟨⟨hchain, hkey, hpaired⟩, rfl, rfl⟩
    refine ⟨c.leaf, c.others, hchain, c.key, hkey, ?_⟩
    rw [hpaired]
    exact if_pos rfl

theorem load_eq_ok_iff {first second : FileSystem} :
    load first second certPath keyPath = .ok c ↔
      keyPath ≠ "" ∧ c.certPath = certPath ∧ c.keyPath = keyPath ∧
        ∃ certFile keyFile, first.read certPath = .ok certFile ∧
          second.read keyPath = .ok keyFile ∧ c.IsOf certFile keyFile := by
  unfold load
  by_cases hempty : keyPath = ""
  · simp [hempty]
  · have hnamed : keyPath.isEmpty = false := Bool.eq_false_iff.mpr fun h =>
      hempty ((Str.isEmpty_iff keyPath).mp h)
    cases hcert : first.read certPath with
    | error fault => simp [hnamed]
    | ok certFile =>
      cases hkey : second.read keyPath with
      | error fault => simp [hnamed]
      | ok keyFile =>
        simp only [hnamed, Bool.false_eq_true, if_false, ofFiles_eq_ok_iff, Except.ok.injEq]
        constructor
        · rintro ⟨hof, hcertPath, hkeyPath⟩
          exact ⟨hempty, hcertPath, hkeyPath, _, _, rfl, rfl, hof⟩
        · rintro ⟨-, hcertPath, hkeyPath, _, _, rfl, rfl, hof⟩
          exact ⟨hof, hcertPath, hkeyPath⟩

end Reading

end Credential

/-! ## Written credentials -/

private theorem Certificate.areThoseOf_encode {der : Bytes} {c : Certificate}
    (h : ofDer der = .ok c) :
    AreThoseOf (Pem.encode "CERTIFICATE" der) [c] :=
  ⟨_, Pem.blocks_encode (by decide) (by decide) der, .cons h .nil⟩

private theorem PrivateKey.ofPem_encode {label : String} (hlabel : label ∈ labels) {der : Bytes}
    {key : PrivateKey} (h : ofBlock ⟨label, [], der⟩ = .ok key) :
    ofPem (Pem.encode label der) = .ok key := by
  have hplain : ∀ l ∈ labels, l ≠ "" ∧ 45 ∉ Bytes.ofString l := by decide
  obtain ⟨hfilled, hdash⟩ := hplain label hlabel
  rw [ofPem, Pem.blocks_encode hfilled hdash]
  simpa [List.find?_cons, hlabel] using h

/-- A small certificate and its key. -/
structure Sample where
  secret : Nat
  x : Nat
  y : Nat

namespace Sample

open Crypto

local instance sampleKeys : KeyLibrary := .standard

def point (s : Sample) : Bytes := 4 :: Digest.bigEndian 32 s.x ++ Digest.bigEndian 32 s.y

/-- The encoding of a certificate for the point. Its version is one more than the number, and the
other bytes are its issuer. -/
def certificateDer (s : Sample) (version : UInt8) (issuer : Bytes) : Bytes :=
  let size : UInt8 := issuer.length.toUInt8
  let algorithm := [0x30, 0x0A, 0x06, 0x08] ++ ObjectId.ecdsaSha256
  [0x30, 0x81, 0xA6 + size, 0x30, 0x81, 0x93 + size, 0xA0, 0x03, 0x02, 0x01, version] ++
    [0x02, 0x01, 0x01] ++ algorithm ++ [0x30, size] ++ issuer ++
    [0x30, 0x1E, 0x17, 0x0D] ++ Bytes.ofString "500101000000Z" ++
    [0x17, 0x0D] ++ Bytes.ofString "491231235959Z" ++ [0x30, 0x00] ++
    [0x30, 0x59, 0x30, 0x13, 0x06, 0x07] ++ ObjectId.ec ++ [0x06, 0x08] ++ Curve.p256.id ++
    [0x03, 0x42, 0x00] ++ s.point ++ algorithm ++ [0x03, 0x02, 0x00, 0x01]

def keyDer (s : Sample) : Bytes :=
  [0x30, 0x77, 0x02, 0x01, 0x01, 0x04, 0x20] ++ Digest.bigEndian 32 s.secret ++
    [0xA0, 0x0A, 0x06, 0x08] ++ Curve.p256.id ++ [0xA1, 0x44, 0x03, 0x42, 0x00] ++ s.point

def certFile (s : Sample) : Bytes := Pem.encode "CERTIFICATE" (s.certificateDer 2 [])

def keyFile (s : Sample) : Bytes := Pem.encode "EC PRIVATE KEY" s.keyDer

def key (s : Sample) : PrivateKey := .ec .p256 s.secret s.x s.y

def once : Sample := ⟨1, Curve.p256.baseX, Curve.p256.baseY⟩

def twice : Sample where
  secret := 2
  x := 0x7CF27B188D034F7E8A52380304B51AC3C08969E277F21B35A60B48FC47669978
  y := 0x07775510DB8ED040293D9AC69F7430DBBA7DADE63CE982299E04B79D227873D1

def onceLeaf : Certificate := (Certificate.read? (once.certificateDer 2 [])).get (by decide +kernel)

def twiceLeaf : Certificate :=
  (Certificate.read? (twice.certificateDer 2 [])).get (by decide +kernel)

def files (certFile keyFile : Bytes) : FileSystem :=
  (({} : FileSystem).write (Bytes.ofString "server.crt") (.file certFile)).write
    (Bytes.ofString "server.key") (.file keyFile)

theorem files_read_cert (certFile keyFile : Bytes) :
    (files certFile keyFile).read "server.crt" = .ok certFile := by
  with_unfolding_all rfl

theorem files_read_key (certFile keyFile : Bytes) :
    (files certFile keyFile).read "server.key" = .ok keyFile := by
  with_unfolding_all rfl

def onceCredential : Credential := ⟨"server.crt", "server.key", onceLeaf, [], once.key⟩

private theorem onceCredential_isOf : onceCredential.IsOf once.certFile once.keyFile where
  chain := Certificate.areThoseOf_encode (by decide +kernel)
  key := PrivateKey.ofPem_encode (by decide) (by decide +kernel)
  paired := by decide +kernel

theorem load_once (first second : FileSystem) (hcert : first.read "server.crt" = .ok once.certFile)
    (hkey : second.read "server.key" = .ok once.keyFile) :
    Credential.load first second "server.crt" "server.key" = .ok onceCredential :=
  Credential.load_eq_ok_iff.mpr
    ⟨by decide, rfl, rfl, _, _, hcert, hkey, onceCredential_isOf⟩

end Sample

end TlsGate.Pki
