import ClipFerry.Foundation.WordSum
import ClipFerry.Local.StableFile
import ClipFerry.Product.Session
import ClipFerry.Protocol.ReceivedManifest

namespace ClipFerry.Product

open WordSum Protocol VirtualTree Local

/-! The line `run_secure_receiver_probe` prints when the received files are on the clipboard. -/

structure SecureReceiverReady where
  offer : ProtocolId
  items : Nat
  files : Nat
  directories : Nat
  totalSize : UInt64
  asyncMode : Bool
  lifetime : Option Nat

def secureReceiverReady (asyncMode : Bool) (lifetime : Option Nat) (manifest : OfferManifest) :
    SecureReceiverReady :=
  let files := (manifest.entries.filter fun entry => !entry.descriptor.isDirectory).length
  { offer := manifest.offerId
    items := manifest.entries.length
    files := files
    directories := manifest.entries.length - files
    totalSize := (manifest.entries.map (·.descriptor.size)).sum
    asyncMode := asyncMode
    lifetime := lifetime }

def entrySizes (manifest : OfferManifest) : List UInt64 := manifest.entries.map (·.descriptor.size)

def regularSizes (manifest : OfferManifest) : List UInt64 :=
  (manifest.entries.filter fun entry => !entry.descriptor.isDirectory).map (·.descriptor.size)

structure ExactTotal (manifest : OfferManifest) : Prop where
  summary : ∀ direction,
    (summarizeManifest direction manifest).totalSize.toNat = exactSum (entrySizes manifest)
  ready : ∀ asyncMode lifetime,
    (secureReceiverReady asyncMode lifetime manifest).totalSize.toNat =
      exactSum (entrySizes manifest)
  noPanic : sumChecked (entrySizes manifest) ≠ none

theorem exactTotal_iff {manifest : OfferManifest} :
    ExactTotal manifest ↔ exactSum (entrySizes manifest) < 2 ^ 64 := by
  constructor
  · intro h
    exact toNat_sum_eq_iff.mp (h.summary "接收")
  · intro hfits
    have htotal := toNat_sum_eq_iff.mpr hfits
    refine ⟨fun _ => htotal, fun _ _ => htotal, ?_⟩
    rw [sumChecked_sum_iff.mpr hfits]
    exact Option.some_ne_none _

theorem exactSum_regularSizes {toLowercase : Char → Text} {manifest : OfferManifest}
    (wf : WellFormedTree toLowercase (manifest.entries.map (·.descriptor))) :
    exactSum (regularSizes manifest) = exactSum (entrySizes manifest) := by
  refine exactSum_filter fun entry hentry hdir => ?_
  exact wf.directories _ (List.mem_map_of_mem hentry) (by simpa using hdir)

theorem received_total_exact_iff {toLowercase : Char → Text} {response : List UInt8}
    {manifest : OfferManifest} (h : decodeManifestResponse toLowercase response = .ok manifest) :
    ExactTotal manifest ↔ exactSum (regularSizes manifest) < 2 ^ 64 := by
  rw [exactSum_regularSizes (decodeManifestResponse_wellFormed h)]
  exact exactTotal_iff

theorem received_total_exact_iff_mixed_case :
    ExactTotal mixedCaseManifest ↔ exactSum (regularSizes mixedCaseManifest) < 2 ^ 64 :=
  received_total_exact_iff mixedCaseResponse_decodes

def hugeManifest : OfferManifest where
  offerId := repeatedId 9
  entries := [⟨repeatedId 1, .basic ['a'] 0x8000000000000000⟩, ⟨repeatedId 2, .basic ['b'] 0x8000000000000000⟩]
  ttl := fromMillis 1

def hugeResponse : List UInt8 := manifestHeader hugeManifest ++ hugeManifest.entries.flatMap entryBytes

theorem hugeResponse_decodes :
    decodeManifestResponse asciiLowercase hugeResponse = .ok hugeManifest :=
  decodeManifestResponse_bytes hugeManifest ((validate_eq_ok_iff _).mp (by decide))
    (by decide) (by decide) (by decide)

theorem received_total_wraps :
    ¬∀ response manifest, decodeManifestResponse asciiLowercase response = .ok manifest →
      ExactTotal manifest := by
  intro h
  exact absurd (exactTotal_iff.mp (h _ _ hugeResponse_decodes)) (by decide)

def capturedTotal (entries : List FileSnapshot) : Except CaptureRejection UInt64 :=
  match sumChecked ((entries.filter fun entry => !entry.isDirectory).map (·.size)) with
  | some total => .ok total
  | none => .error .manifestTooLarge

theorem size_descriptor (snapshot : FileSnapshot) : snapshot.descriptor.size = snapshot.size := rfl

theorem or_and_self (a b : UInt32) : (a ||| b) &&& b = b := by
  apply UInt32.toBitVec_inj.mp
  ext i hi
  simpa using Or.inr

theorem transferableAttributes_directory (attributes : UInt32) :
    transferableAttributes attributes &&& fileAttributeDirectory = 0 ↔
      attributes &&& fileAttributeDirectory = 0 := by
  have hmask : (fileAttributeArchive ||| fileAttributeHidden ||| fileAttributeReadonly |||
      fileAttributeSystem) &&& fileAttributeDirectory = 0 := by decide
  rw [transferableAttributes]
  by_cases hdir : attributes &&& fileAttributeDirectory = 0
  · simp only [hdir, ne_eq, not_true_eq_false, if_false, iff_true]
    split
    · decide
    · rw [UInt32.and_assoc, hmask, UInt32.and_zero]
  · simp only [hdir, ne_eq, not_false_eq_true, if_true, iff_false]
    rw [or_and_self]
    decide

theorem isDirectory_descriptor (snapshot : FileSnapshot) :
    snapshot.descriptor.isDirectory = snapshot.isDirectory := by
  rw [VirtualFileDescriptor.isDirectory, FileSnapshot.isDirectory, FileSnapshot.descriptor,
    Bool.eq_iff_iff, bne_iff_ne, bne_iff_ne, ne_eq, ne_eq, transferableAttributes_directory]

theorem captured_total_exact {toLowercase : Char → Text} {entries : List FileSnapshot}
    {total : UInt64} {manifest : OfferManifest}
    (htree : validateVirtualDescriptorTree toLowercase (entries.map (·.descriptor)) = .ok ())
    (htotal : capturedTotal entries = .ok total)
    (hsent : manifest.entries.map (·.descriptor) = entries.map (·.descriptor)) :
    ExactTotal manifest ∧ ∀ direction, (summarizeManifest direction manifest).totalSize = total := by
  have hregular : regularSizes manifest =
      (entries.filter fun entry => !entry.isDirectory).map (·.size) := by
    have hsizes := congrArg (fun ds => (ds.filter fun d => !d.isDirectory).map (·.size)) hsent
    simpa [regularSizes, List.filter_map, List.map_map, Function.comp_def,
      isDirectory_descriptor, size_descriptor] using hsizes
  have hsame : exactSum (regularSizes manifest) = exactSum (entrySizes manifest) :=
    exactSum_regularSizes (hsent ▸ (validate_eq_ok_iff _).mp htree)
  rw [capturedTotal, ← hregular] at htotal
  split at htotal
  · next checked hchecked =>
    cases htotal
    have hexact := sumChecked_eq_some.mp hchecked
    have hfits : exactSum (entrySizes manifest) < 2 ^ 64 := by
      rw [← hsame, ← hexact]
      exact total.toNat_lt
    refine ⟨exactTotal_iff.mpr hfits, fun direction => ?_⟩
    apply UInt64.toNat_inj.mp
    rw [(exactTotal_iff.mpr hfits).summary, hexact, hsame]
  · cases htotal

end ClipFerry.Product
