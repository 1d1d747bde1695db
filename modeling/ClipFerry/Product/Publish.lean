import ClipFerry.Local.StartedOffer
import ClipFerry.Product.Session

namespace ClipFerry.Product

open VirtualTree Protocol Server Local Settings

inductive CaptureError where
  | windows (error : HResult)
  | rejected (reason : CaptureRejection)
deriving DecidableEq

def userMessage : CaptureRejection → String
  | .missingCopyEffect => "剪贴板来源没有标明这是“复制”还是“剪切”。为避免误操作，ClipFerry 未发送；请在文件资源管理器中使用 Ctrl+C 后重试。"
  | .cutOperation => "检测到剪切操作。ClipFerry 只发送复制的文件，请改用 Ctrl+C。"
  | .tooManyItems => "一次选择的项目过多，请减少项目数量后重试。"
  | .treeTooDeep => "文件夹层级过深，无法安全生成传输清单。"
  | .manifestTooLarge => "文件清单过大，无法安全传输。"
  | .invalidPath => "剪贴板中包含无效或不完整的文件路径。"
  | .nonUnicodeName => "文件名无法用 Windows Unicode 路径表示。"
  | .directory => "当前操作不支持直接读取这个目录。"
  | .nonDiskFile => "所选内容不是本机磁盘上的普通文件。"

-- `windowsText` is what the system says about one of its error codes
def captureIoError (windowsText : HResult → String) : CaptureError → IoError
  | .rejected reason => .new .unsupported (userMessage reason)
  | .windows error => .new .other (windowsText error)

def windowsToIo (windowsText : HResult → String) (error : HResult) : IoError :=
  .new .other (windowsText error ++ " (0x" ++ .ofList (upperHex 8 error.code.toNat) ++ ")")

/-! What the system, the network and the store answer to one call of `publish_paths`. -/

structure PublishAnswers where
  capture : Except CaptureError FileTreeSnapshot
  guid : Except HResult (List.Vector UInt8 16)
  random : Nat → Except IoError ProtocolId
  identity : Except IoError Unit
  tls : Except IoError Unit
  server : Except IoError (Nat × SocketAddr)
  announcement : Except IoError Unit
  ttlAt : Nat
  createdAt : Nat
  manifestAt : Nat
  sampledAt : Nat

def fromLocalOffer (toLowercase : Char → Text) (world : LocalWorld) (answers : PublishAnswers)
    (offer : LocalFileOffer) : Except IoError (SecureOfferedFile Nat) :=
  SecureOfferedFile.newTree toLowercase
    (fun s => ((world.sources[s]?).map (·.snapshot.size)).getD 0) answers.random answers.createdAt
    (offer.entries.map fun entry => (entry.snapshot.descriptor, entry.source))
    (offer.remainingTtl answers.ttlAt)

section Definitions

variable (toLowercase : Char → Text) (windowsText : HResult → String)

def startSource (registry : LocalWorld) (answers : PublishAnswers) (offer : LocalFileOffer) :
    Except IoError LiveSourceOffer := do
  let offered ← fromLocalOffer toLowercase registry answers offer
  answers.identity
  answers.tls
  let server ← answers.server
  .ok ⟨server.1, offered.manifest answers.manifestAt⟩

def ProductSession.addSource (session : ProductSession) (source : LiveSourceOffer) :
    ProductSession :=
  { session with
    sources := (if session.sources.length = maxLiveSourceOffers then session.sources.drop 1
      else session.sources) ++ [source]
    activeDirection := some .source
    snapshot := session.snapshot.announce (summarizeManifest "发送" source.manifest) }

def ProductSession.publishPaths (session : ProductSession) (answers : PublishAnswers) :
    ProductSession × Except IoError Unit :=
  match answers.capture with
  | .error error => (session, .error (captureIoError windowsText error))
  | .ok tree =>
    match session.registry.publishTree answers.guid tree offerTtl with
    | (registry, .error error) =>
      ({ session with registry := registry }, .error (windowsToIo windowsText error))
    | (registry, .ok offer) =>
      match startSource toLowercase registry answers offer with
      | .error error => ({ session with registry := registry }, .error error)
      | .ok source =>
        ((({ session with registry := registry } : ProductSession).addSource source).resetSamples
          answers.sampledAt, answers.announcement)

end Definitions

/-! The session as it was: the same offer is current, every file that could be read still can,
and nothing that is shown but the error text has changed. -/

structure ProductSession.Restored (session session' : ProductSession) : Prop where
  current : session'.registry.registry.current = session.registry.registry.current
  readable : ∀ s disk content, session.registry.Reads disk content s →
    session'.registry.Reads disk content s
  sources : session'.sources = session.sources
  activeDirection : session'.activeDirection = session.activeDirection
  snapshot : { session'.snapshot with lastError := none } =
    { session.snapshot with lastError := none }

def PublishAnswers.failsEarly (session : ProductSession) (answers : PublishAnswers) : Prop :=
  (∃ error, answers.capture = .error error) ∨ ∃ tree error, answers.capture = .ok tree ∧
    session.registry.createTree answers.guid tree offerTtl = .error error

variable {toLowercase : Char → Text} {windowsText : HResult → String}
  {session session' : ProductSession} {answers : PublishAnswers} {error : IoError}

theorem ProductSession.Restored.refl (session : ProductSession) : session.Restored session :=
  ⟨rfl, fun _ _ _ h => h, rfl, rfl, rfl⟩

theorem publishTree_error {world : LocalWorld} {guid : Except HResult (List.Vector UInt8 16)}
    {tree : FileTreeSnapshot} {ttl : Nat} {code : HResult}
    (h : world.createTree guid tree ttl = .error code) :
    world.publishTree guid tree ttl = (world, .error code) := by
  rw [LocalWorld.publishTree, h]

theorem publishPaths_early (h : answers.failsEarly session) :
    (session.publishPaths toLowercase windowsText answers).1 = session := by
  rcases h with ⟨failure, hcapture⟩ | ⟨tree, code, hcapture, hcreate⟩
  · rw [ProductSession.publishPaths, hcapture]
  · rw [ProductSession.publishPaths, hcapture]
    simp only [publishTree_error hcreate]

theorem publishPaths_current (h : ¬answers.failsEarly session) : ∃ tree offer created,
    answers.capture = .ok tree ∧
    session.registry.createTree answers.guid tree offerTtl = .ok (offer, created) ∧
    (session.publishPaths toLowercase windowsText answers).1.registry =
      created.replaceCurrent (some offer) := by
  cases hcapture : answers.capture with
  | error failure => exact absurd (.inl ⟨failure, hcapture⟩) h
  | ok tree =>
    cases hcreate : session.registry.createTree answers.guid tree offerTtl with
    | error code => exact absurd (.inr ⟨tree, code, hcapture, hcreate⟩) h
    | ok result =>
      obtain ⟨offer, created⟩ := result
      refine ⟨tree, offer, created, rfl, hcreate, ?_⟩
      simp only [ProductSession.publishPaths, hcapture, LocalWorld.publishTree, hcreate]
      split
      · rfl
      · rfl

theorem createTree_guid {world created : LocalWorld} {guid : Except HResult (List.Vector UInt8 16)}
    {tree : FileTreeSnapshot} {ttl : Nat} {offer : LocalFileOffer}
    (h : world.createTree guid tree ttl = .ok (offer, created)) : guid = .ok offer.offerId := by
  obtain ⟨-, h⟩ := Checked.guard_eq_ok.mp h
  obtain ⟨offerId, hguid, h⟩ := Checked.bind_eq_ok.mp h
  split at h
  · cases h
  · cases h
    exact hguid

theorem publishPaths_refuses {offer : LocalFileOffer} {s : Nat} {source : StableFileSource}
    (h : ¬answers.failsEarly session) (hcurrent : session.registry.registry.current = some offer)
    (hs : s ∈ offer.sources) (hsource : session.registry.sources[s]? = some source)
    (hstate : ∀ context, source.state ≠ .active context) (disk : Disk) (content : List UInt8) :
    ¬(session.publishPaths toLowercase windowsText answers).1.registry.Reads disk content s := by
  rintro ⟨source', hsource', hreads⟩
  obtain ⟨tree, offer', created, -, hcreate, hregistry⟩ :=
    @publishPaths_current toLowercase windowsText _ _ h
  have hpublish : session.registry.publishTree answers.guid tree offerTtl =
      (created.replaceCurrent (some offer'), .ok offer') := by
    rw [LocalWorld.publishTree, hcreate]
  obtain ⟨hrevoked, -⟩ := LocalWorld.published_source hcurrent hs hsource hpublish
  rw [hregistry] at hsource' hreads
  obtain rfl := Option.some.inj (hrevoked.symm.trans hsource')
  obtain ⟨error, herror⟩ := @LocalWorld.refused_of_revoked source.revoke rfl hstate disk
    (created.replaceCurrent (some offer')).now 0 1 Nat.one_ne_zero
  have hread := hreads 0 1 Nat.one_ne_zero
  rw [herror] at hread
  cases hread

theorem publish_restores_iff
    (hguid : ∀ offer, session.registry.registry.current = some offer →
      answers.guid ≠ .ok offer.offerId)
    (h : session.publishPaths toLowercase windowsText answers = (session', .error error)) :
    session.Restored session' ↔ answers.failsEarly session := by
  have hsession : session' = (session.publishPaths toLowercase windowsText answers).1 := by rw [h]
  constructor
  · intro hrestored
    by_contra hlate
    obtain ⟨tree, offer, created, -, hcreate, hregistry⟩ :=
      @publishPaths_current toLowercase windowsText _ _ hlate
    have hcurrent := hrestored.current
    rw [hsession, hregistry, LocalWorld.registry_replaceCurrent] at hcurrent
    exact hguid offer hcurrent.symm (createTree_guid hcreate)
  · intro hearly
    rw [hsession, publishPaths_early hearly]
    exact .refl session

def soloAnswers (guid : UInt8) (tree : List FileSnapshot) : PublishAnswers where
  capture := .ok ⟨tree⟩
  guid := .ok (repeatedGuid guid)
  random i := .ok (repeatedId (.ofNat i))
  identity := .ok ()
  tls := .ok ()
  server := .ok (0, .v4 (soloHost 1) 50000)
  announcement := .ok ()
  ttlAt := 0
  createdAt := 0
  manifestAt := 0
  sampledAt := 0

def soloText : HResult → String := fun _ => ""

def soloPublished : ProductSession × Except IoError Unit :=
  (ProductSession.start (soloSettings false) [] 0).publishPaths (fun c => [c]) soloText
    (soloAnswers 1 [soloFile 'a' 1, soloFile 'b' 2])

def soloUnidentified : PublishAnswers :=
  { soloAnswers 2 [soloFile 'c' 3] with identity := .error (.new .notFound "identity") }

def soloUncaptured : PublishAnswers :=
  { soloAnswers 2 [] with capture := .error (.rejected .tooManyItems) }

theorem publish_restores_iff_solo :
    soloPublished.1.publishPaths (fun c => [c]) soloText soloUncaptured =
      (soloPublished.1, .error (.new .unsupported (userMessage .tooManyItems))) ∧
      soloPublished.1.Restored soloPublished.1 := by
  have hguid : ∀ offer, soloPublished.1.registry.registry.current = some offer →
      soloUncaptured.guid ≠ .ok offer.offerId := by
    intro offer hoffer
    obtain rfl := Option.some.inj hoffer
    decide
  have hpublish : soloPublished.1.publishPaths (fun c => [c]) soloText soloUncaptured =
      (soloPublished.1, .error (.new .unsupported (userMessage .tooManyItems))) := rfl
  exact ⟨hpublish, (publish_restores_iff hguid hpublish).mpr (.inl ⟨_, rfl⟩)⟩

theorem publish_failure_replaces_offer : ∃ session',
    soloPublished.1.publishPaths (fun c => [c]) soloText soloUnidentified =
      (session', .error (.new .notFound "identity")) ∧
    ((soloPublished.1.registry.sources[0]?).map fun source =>
      (source.readAt soloDisk 0 0 2).2) = some (.ok [1, 2]) ∧
    ((session'.registry.sources[0]?).map fun source =>
      (source.readAt soloDisk 0 0 2).2) = some (.error .timeout) ∧
    ¬soloPublished.1.Restored session' :=
  ⟨_, rfl, rfl, rfl, fun h => absurd h.current (by decide)⟩

end ClipFerry.Product
