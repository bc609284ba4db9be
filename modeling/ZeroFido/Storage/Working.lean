import ZeroFido.Crypto
import ZeroFido.Foundations.Invariant
import ZeroFido.Storage.AtomicFile

/-!
# A device on which every call succeeds

No failure is listed for any call, and the random generator has keys in it that the curve takes. No
operation changes this: outcomes are only taken from the front of the lists, and the generator only
moves on.
-/

set_option autoImplicit false
set_option relaxedAutoImplicit false

namespace ZeroFido.Storage

open Foundations

variable {Event : Type} {ValidKey : Bytes → Prop} {world world' : World Event}

/-- Every coming call succeeds, and wherever a private key is drawn, it is valid. -/
structure Working (ValidKey : Bytes → Prop) (world : World Event) : Prop where
  writes : world.writes = []
  reads : world.reads = []
  enclave : world.enclave = []
  keyGenerations : world.keyGenerations = []
  keys : ∀ position,
    ValidKey ((List.range privateKeyLen).map fun index ↦ world.entropy (position + index))

section Steps

theorem Working.onlyFiles (h : Working ValidKey world) (honly : OnlyFiles world world') :
    Working ValidKey world' := by
  have hwrites := honly.writes_nil h.writes
  have hsame := honly.eq
  refine ⟨hwrites, ?_, ?_, ?_, ?_⟩
  · rw [hsame]
    exact h.reads
  · rw [hsame]
    exact h.enclave
  · rw [hsame]
    exact h.keyGenerations
  · rw [hsame]
    exact h.keys

/-- Time passes, and the observer is told something. -/
theorem Working.later (h : Working ValidKey world) (clock : ℕ) (trace : List Event) :
    Working ValidKey { world with clock, trace } :=
  ⟨h.writes, h.reads, h.enclave, h.keyGenerations, h.keys⟩

theorem Working.drawn (h : Working ValidKey world) (length : ℕ) :
    Working ValidKey
      { world with entropy := fun position ↦ world.entropy (position + length) } := by
  refine ⟨h.writes, h.reads, h.enclave, h.keyGenerations, fun position ↦ ?_⟩
  have hkey := h.keys (position + length)
  simp only [Nat.add_right_comm position length] at hkey
  exact hkey

end Steps

section Calls

theorem sustains_working_onlyFiles {Value : Type} {program : Program (World Event) Value}
    (h : ∀ world : World Event, Ensures program (fun _ world' ↦ OnlyFiles world world')
      (fun world' ↦ OnlyFiles world world') world) :
    Sustains (Working ValidKey) (fun _ ↦ True) program :=
  fun world hworld ↦ (h world).mono (fun _ _ honly ↦ ⟨trivial, hworld.onlyFiles honly⟩)
    fun _ honly ↦ hworld.onlyFiles honly

theorem sustains_working_randomFill (length : ℕ) :
    Sustains (Working ValidKey) (fun bytes ↦ bytes.length = length)
      (randomFill length : Program (World Event) Bytes) :=
  fun _ hworld ↦ ⟨by simp, hworld.drawn length⟩

theorem sustains_working_note (event : Event) :
    Sustains (Working ValidKey) (fun _ ↦ True) (note event) :=
  .modifying fun world hworld ↦ hworld.later world.clock _

theorem sustains_working_nextRead :
    Sustains (Working ValidKey) (fun ok ↦ ok = true) (nextRead : Program (World Event) Bool) := by
  intro world hworld
  have hreads := hworld.reads
  refine ⟨by rw [hreads]; rfl, hworld.writes, ?_, hworld.enclave, hworld.keyGenerations,
    hworld.keys⟩
  show world.reads.tail = []
  rw [hreads]
  rfl

theorem sustains_working_nextEnclave :
    Sustains (Working ValidKey) (fun ok ↦ ok = true)
      (nextEnclave : Program (World Event) Bool) := by
  intro world hworld
  have henclave := hworld.enclave
  refine ⟨by rw [henclave]; rfl, hworld.writes, hworld.reads, ?_, hworld.keyGenerations,
    hworld.keys⟩
  show world.enclave.tail = []
  rw [henclave]
  rfl

theorem sustains_working_nextKeyGeneration :
    Sustains (Working ValidKey) (fun ok ↦ ok = true)
      (nextKeyGeneration : Program (World Event) Bool) := by
  intro world hworld
  have hkeys := hworld.keyGenerations
  refine ⟨by rw [hkeys]; rfl, hworld.writes, hworld.reads, hworld.enclave, ?_, hworld.keys⟩
  show world.keyGenerations.tail = []
  rw [hkeys]
  rfl

/-- A program that draws random bytes. -/
theorem sustains_working_draw {Value : Type} {length : ℕ}
    {rest : Bytes → Program (World Event) Value} {post : Value → Prop}
    (h : ∀ bytes, Sustains (Working ValidKey) post (rest bytes)) :
    Sustains (Working ValidKey) post (randomFill length >>= rest) :=
  (sustains_working_randomFill length).bind fun bytes _ ↦ h bytes

theorem sustains_working_enclaveSeal (crypto : Crypto) (iv plaintext : Bytes) :
    Sustains (Working ValidKey) (fun _ ↦ True)
      (crypto.enclaveSeal iv plaintext : Program (World Event) (Option Bytes)) :=
  sustains_working_nextEnclave.bind fun _ _ ↦ .ite (fun _ ↦ .pure trivial) fun _ ↦ .pure trivial

theorem sustains_working_enclaveOpen (crypto : Crypto) (iv ciphertext : Bytes) :
    Sustains (Working ValidKey) (fun _ ↦ True)
      (crypto.enclaveOpen iv ciphertext : Program (World Event) (Option Bytes)) :=
  sustains_working_nextEnclave.bind fun _ _ ↦ .ite (fun _ ↦ .pure trivial) fun _ ↦ .pure trivial

/-- A key that was generated has its public half, and a private half that the curve takes. -/
structure KeyPair (crypto : Crypto) (ValidKey : Bytes → Prop) (key : KeyAgreementKey) : Prop where
  valid : ValidKey key.privateKey
  publicKey : crypto.p256PublicKey key.privateKey = (key.publicX, key.publicY)

theorem sustains_working_generateKeyAgreementKey (crypto : Crypto) :
    Sustains (Working ValidKey) (fun result ↦ ∃ key, result = some key ∧
      KeyPair crypto ValidKey key)
      (crypto.generateKeyAgreementKey : Program (World Event) (Option KeyAgreementKey)) := by
  refine sustains_working_nextKeyGeneration.bind fun ok hok ↦ ?_
  subst hok
  intro world hworld
  have hvalid : ValidKey ((List.range privateKeyLen).map world.entropy) := by
    have hkey := hworld.keys 0
    simpa only [Nat.zero_add] using hkey
  exact ⟨⟨_, rfl, hvalid, rfl⟩, hworld.drawn privateKeyLen⟩

theorem sustains_working_fileExists (path : Path) :
    Sustains (Working ValidKey) (fun _ ↦ True) (fileExists path : Program (World Event) Bool) :=
  fun _ hworld ↦ ⟨trivial, hworld⟩

theorem sustains_working_readFile (path : Path) (capacity : ℕ) :
    Sustains (Working ValidKey) (fun _ ↦ True)
      (readFile path capacity : Program (World Event) (Option Bytes)) := by
  refine Sustains.get.bind fun world _ ↦ ?_
  cases world.files path with
  | none => exact .pure trivial
  | some data =>
    exact sustains_working_nextRead.bind fun _ _ ↦ .ite
      (fun _ ↦ .ite (fun _ ↦ .pure trivial) fun _ ↦ .pure trivial) fun _ ↦ .pure trivial

theorem sustains_working_ensureDir (path : Path) :
    Sustains (Working ValidKey) (fun _ ↦ True) (ensureDir path : Program (World Event) Bool) := by
  intro world hworld
  simp only [ensureDir, nextWrite, ensures_bind, ensures_get, ensures_modifyGet, ensures_ite,
    ensures_pure, hworld.writes]
  exact ⟨fun _ ↦ ⟨trivial, hworld⟩, fun _ ↦ ⟨trivial, rfl, hworld.reads, hworld.enclave,
    hworld.keyGenerations, hworld.keys⟩⟩

theorem sustains_working_ensureAppDataDir :
    Sustains (Working ValidKey) (fun _ ↦ True) (ensureAppDataDir : Program (World Event) Bool) :=
  (sustains_working_ensureDir _).andM (sustains_working_ensureDir _)

variable {path temp : Path}

theorem sustains_working_writeFileAtomic {data : Bytes} (hpaths : AtomicPaths path temp)
    (hdata : data ≠ []) :
    Sustains (Working ValidKey) (fun _ ↦ True)
      (writeFileAtomic path temp data : Program (World Event) Bool) :=
  sustains_working_onlyFiles fun _ ↦ (ensures_writeFileAtomic hpaths hdata).mono
    (fun _ _ hfinal ↦ hfinal.1.only) fun _ hcrash ↦ hcrash.moves.only

theorem sustains_working_recoverAtomicFile (hpaths : AtomicPaths path temp) :
    Sustains (Working ValidKey) (fun _ ↦ True)
      (recoverAtomicFile path temp : Program (World Event) Bool) :=
  sustains_working_onlyFiles fun _ ↦ (ensures_recoverAtomicFile hpaths).mono
    (fun _ _ hfinal ↦ hfinal.1.only) fun _ hcrash ↦ hcrash.moves.only

theorem sustains_working_removeAtomicFile (hpaths : AtomicPaths path temp) :
    Sustains (Working ValidKey) (fun _ ↦ True)
      (removeAtomicFile path temp : Program (World Event) Bool) :=
  sustains_working_onlyFiles fun _ ↦ (ensures_removeAtomicFile hpaths).mono
    (fun _ _ hfinal ↦ hfinal.1.only) fun _ hcrash ↦ hcrash.moves.only

end Calls

end ZeroFido.Storage
