import KairosBoot.FlashKeeps
import KairosBoot.FlashSlots

/-! # Logical partitions and the bootloader

A public flash asks the device once whether a partition is logical, and flashes several names when
slots are expanded.  On a device that is not in userspace and without `force`, an operation goes on
only if the name that it has asked about is not logical (`prepareFlash_guarded`,
`prepareRepack_guarded`).  So it sends nothing for a logical partition unless one of the other names
that the table, the argument and the policy resolve to is logical, and if one is, there is a flash
that overwrites it (`logical_spared_iff`). -/

namespace KairosBoot

open Outcomes PrimitiveService

namespace ReplyTable

/-- The device says that the partition is logical. -/
def Logical (table : ReplyTable) (partition : String) : Prop :=
  table ("is-logical:" ++ partition) = .okay "yes"

/-- One of the names is logical, and those that the device is asked about are not. -/
def Exposes (table : ReplyTable) (asked names : List String) : Prop :=
  (∀ name ∈ asked, ¬ table.Logical name) ∧ ∃ name ∈ names, table.Logical name

/-- The names of a flash are exposed; it asks about the first one, and in the raw profile about
none. -/
def FlashExposes (table : ReplyTable) (partition : String) (policy : SlotPolicy)
    (aospRawProfile : Bool) : Prop :=
  ∃ targets, table.targetsReported partition policy aospRawProfile = some targets ∧
    table.Exposes (if aospRawProfile then [] else targets.partitions.take 1) targets.partitions

/-- The names of a repack are exposed; it asks about its argument. -/
def RepackExposes (table : ReplyTable) (partition : String) (policy : SlotPolicy) : Prop :=
  ∃ names, table.repackNames partition policy.slot = some names ∧ table.Exposes [partition] names

end ReplyTable

/-- The program sends no data and no flash command for a logical partition: it keeps whatever these
keep for the other partitions, and the other commands and calls keep too. -/
def SparesLogical {σ ε α : Type} (table : ReplyTable) (port : SessionPort σ)
    (context : OperationContext σ) (host : FlashHost σ) (x : Prog σ ε α) : Prop :=
  ∀ J, Spares (fun name => ¬ table.Logical name) J port context host → Keeps J x

/-- No flash of the partition sends anything for a logical one, whatever the image, the host and the
session that answers by the table. -/
def FlashSpares (table : ReplyTable) (partition : String) (options : FlashOptions)
    (policy : SlotPolicy) (aospRawProfile : Bool) : Prop :=
  ∀ (σ : Type) (port : SessionPort σ) (context : OperationContext σ) (host : FlashHost σ)
    (identifier : String) (source : ImageSource), RepliesFrom port table →
    SparesLogical table port context host (PublicFlash.flashSource port context host identifier
      source partition options policy aospRawProfile)

/-- No repack of the partition sends anything for a logical one. -/
def RepackSpares (table : ReplyTable) (partition : String) (options : FlashOptions)
    (policy : SlotPolicy) : Prop :=
  ∀ (σ : Type) (port : SessionPort σ) (context : OperationContext σ) (host : FlashHost σ)
    (identifier : String) (ramdiskName : Bytes) (newRamdisk : ImageSource)
    (newDtb : Option ImageSource), RepliesFrom port table →
    SparesLogical table port context host (PublicFlash.vendorBootRamdisk port context host
      identifier partition ramdiskName newRamdisk newDtb options policy)

section Guard

variable {σ : Type} {port : SessionPort σ} {context : OperationContext σ} {host : FlashHost σ}
  {table : ReplyTable} {identifier : String} {s : σ}

namespace ReplyTable

theorem value_of_logical {name : String} (h : table.Logical name)
    (hask : (table.ask ("is-logical:" ++ name)).isSome) :
    table.value ("is-logical:" ++ name) = some "yes" := by
  obtain ⟨reply, hask⟩ := Option.isSome_iff_exists.mp hask
  obtain ⟨text, -, hrpl⟩ := Option.map_eq_some_iff.mp hask
  rw [value, hask, ← hrpl, h]
  rfl

theorem targetsReported_userspace {partition : String} {policy : SlotPolicy}
    {targets : FlashTargets} (h : table.targetsReported partition policy false = some targets) :
    targets.isUserspace = table.value "is-userspace" := by
  simp only [targetsReported, Option.bind_eq_some_iff, Option.map_eq_some_iff] at h
  obtain ⟨_, -, _, -, _, huserspace, _, -, _, -, rfl⟩ := h
  exact (optional_eq_some huserspace).1

end ReplyTable

namespace PublicFlash

/-! ### Behind the guard -/

variable {options : FlashOptions} {partition : String} {policy : SlotPolicy} {aospRawProfile : Bool}
  (h : Replies False port context table) (hbootloader : table "is-userspace" ≠ .okay "yes")
include h

theorem guardLogical_guarded {isUserspace : Option String} (huserspace : isUserspace ≠ some "yes")
    (partition : String) :
    EndsWith (guardLogical port identifier partition isUserspace false) s
      (fun _ _ => ¬ table.Logical partition) fun _ _ => True := by
  have hquery := queryOptional_decides h identifier ("is-logical:" ++ partition)
  refine (hquery.endsWith trivial).bind fun isLogical s hreply => ?_
  obtain ⟨rfl, hask⟩ := ReplyTable.optional_eq_some hreply
  split_ifs with href
  · exact endsWith_throw trivial
  · exact endsWith_pure fun hlogical =>
      href ⟨ReplyTable.value_of_logical hlogical hask, huserspace, rfl⟩

include hbootloader
variable (hforce : options.force = false)
include hforce

/-- What a flash is about to send is not for a logical partition. -/
theorem prepareFlash_guarded (source : ImageSource)
    (hsafe : ¬ table.FlashExposes partition policy aospRawProfile) :
    EndsWith (prepareFlash port context host identifier source partition options policy
        aospRawProfile) s
      (fun prepared _ => ∀ name ∈ prepared.1.partitions, ¬ table.Logical name)
      fun _ _ => True := by
  refine endsWith_true.bind fun _ s _ => endsWith_true.bind fun artifact s _ => ?_
  refine endsWith_true.bind fun _ s _ => ?_
  have hresolve := resolveTargets_decides h identifier partition policy aospRawProfile
  refine (hresolve.endsWith trivial).bind fun targets s htargets => ?_
  have hguard : EndsWith (guardFlash port identifier (targets.partitions.headD partition)
      targets.isUserspace options.force aospRawProfile) s
      (fun _ _ => ∀ name ∈ targets.partitions, ¬ table.Logical name) fun _ _ => True := by
    cases aospRawProfile with
    | true =>
        refine endsWith_pure fun name hmem hlogical => hsafe ⟨targets, htargets, ?_, name, hmem, hlogical⟩
        exact fun asked hasked => absurd hasked List.not_mem_nil
    | false =>
        have huserspace : targets.isUserspace ≠ some "yes" := by
          rw [ReplyTable.targetsReported_userspace htargets]
          exact fun hval => hbootloader (ReplyTable.value_eq_some hval)
        rw [hforce]
        refine (guardLogical_guarded h huserspace _).mono fun _ _ hfront name hmem hlogical =>
          hsafe ⟨targets, htargets, ?_, name, hmem, hlogical⟩
        cases hnames : targets.partitions with
        | nil => exact fun asked hasked => absurd hasked List.not_mem_nil
        | cons front rest =>
            rw [hnames] at hfront
            exact List.forall_mem_singleton.mpr hfront
  have hplan : EndsWith (planFlash port host identifier artifact partition targets options
      aospRawProfile) s
      (fun _ _ => ∀ name ∈ targets.partitions, ¬ table.Logical name) fun _ _ => True :=
    hguard.bind fun _ s h => endsWith_true.mono fun _ _ _ => h
  refine hplan.bind fun plan s h => endsWith_true.bind fun _ s _ => ?_
  exact endsWith_true.bind fun _ s _ => endsWith_pure h

/-- What a repack is about to send is not for a logical partition. -/
theorem prepareRepack_guarded (hsafe : ¬ table.RepackExposes partition policy) :
    EndsWith (prepareRepack port context host identifier partition options policy) s
      (fun prepared _ => ∀ name ∈ prepared.1, ¬ table.Logical name) fun _ _ => True := by
  refine endsWith_true.bind fun _ s _ => endsWith_true.bind fun _ s _ => ?_
  have hquery := queryOptional_decides h identifier "is-userspace"
  refine (hquery.endsWith trivial).bind fun isUserspace s hreply => ?_
  obtain ⟨rfl, -⟩ := ReplyTable.optional_eq_some hreply
  have huserspace : table.value "is-userspace" ≠ some "yes" :=
    fun hval => hbootloader (ReplyTable.value_eq_some hval)
  refine endsWith_true.bind fun _ s _ => ?_
  rw [hforce]
  refine (guardLogical_guarded h huserspace partition).bind fun _ s hasked => ?_
  have hresolve := repackedPartitions_decides h identifier partition policy.slot
  refine (hresolve.endsWith trivial).bind fun names s hnames => ?_
  refine endsWith_true.bind fun _ s _ => endsWith_true.bind fun _ s _ => ?_
  exact endsWith_pure fun name hmem hlogical =>
    hsafe ⟨names, hnames, List.forall_mem_singleton.mpr hasked, name, hmem, hlogical⟩

theorem flashSource_spares (source : ImageSource)
    (hsafe : ¬ table.FlashExposes partition policy aospRawProfile) :
    SparesLogical table port context host (flashSource port context host identifier source
      partition options policy aospRawProfile) := by
  intro J hspares
  have himage : Keeps J (flashImage port context host identifier source partition options policy
      aospRawProfile) := by
    refine (prepareFlash_keeps hspares source partition options policy aospRawProfile).bind_of
      (fun s => prepareFlash_guarded h hbootloader hforce source hsafe) fun prepared hnames => ?_
    refine (flashPartitions_keeps hspares _ _ hnames 0).bind fun _ => ?_
    exact (checkCancelled_keeps hspares _).bind fun _ => keeps_pure
  refine himage.bind fun ended => (activate_keeps hspares _).bind fun _ => ?_
  exact (checkCancelled_keeps hspares _).bind fun _ => checkProgress_keeps hspares _ _ _ _

theorem vendorBootRamdisk_spares (ramdiskName : Bytes) (newRamdisk : ImageSource)
    (newDtb : Option ImageSource) (hsafe : ¬ table.RepackExposes partition policy) :
    SparesLogical table port context host (vendorBootRamdisk port context host identifier partition
      ramdiskName newRamdisk newDtb options policy) := by
  intro J hspares
  refine (prepareRepack_keeps hspares partition options policy).bind_of
    (fun s => prepareRepack_guarded h hbootloader hforce hsafe) fun prepared hnames => ?_
  refine (repackPartitions_keeps hspares options _ newRamdisk newDtb ramdiskName hnames).bind
    fun _ => ?_
  exact (checkCancelled_keeps hspares _).bind fun _ => checkProgress_keeps hspares _ _ _ _

end PublicFlash

end Guard

/-! ### A device that keeps what it is sent -/

/-- What the device keeps, it accepts. -/
def accepted (text : String) : Prog (List String) ProtocolError CommandResult := do
  modify fun sent => sent ++ [text]
  pure { terminal := (DeviceReply.okay "").response, informational := [] }

/-- The session of a device that answers by a table, and keeps what else it is sent. -/
def devicePort (table : ReplyTable) : SessionPort (List String) where
  command text :=
    if text.toList.take 7 = "getvar:".toList then
      pure { terminal := (table (String.ofList (text.toList.drop 7))).response, informational := [] }
    else accepted text
  downloadSource _ := accepted "DATA"
  receiveToSink _ _ := throw { code := .closed, message := "Fastboot session is closed" }
  state _ := .ready
  requestCancel s := s
  close s := s

/-- A host without cancellations and failures. -/
def quietHost (σ : Type) : FlashHost σ where
  cancelRequested s := (false, s)
  reportProgress _ _ _ s := (true, s)
  applyVbmetaFlags source s := (.ok source, s)
  inspectStopped s := (none, s)
  planStopped s := (none, s)
  repackStopped s := (none, s)
  transferSourceFailed s := (none, s)
  openTarget s := (none, s)
  temporaryPath s := (none, s)
  createSink s := (none, s)
  sealSink _ s := (none, s)
  openFetched s := (.ok (ImageSource.ofBytes [] (Nat.zero_le _)), s)

theorem smallImage_size_le : ([1] : Bytes).length ≤ uint64Max := by decide

/-- An image that every download limit allows. -/
def smallImage : ImageSource := ImageSource.ofBytes [1] smallImage_size_le

/-- Every query about the partition and the flash command for it can be sent. -/
def Fits (name : String) : Prop :=
  name ≠ "" ∧ isPrintableAscii name = true ∧ name.toList.length + 22 ≤ kDefaultMaxCommandBytes

section Device

variable {table : ReplyTable} {identifier name partition : String} {sent : List String}

theorem devicePort_replies (table : ReplyTable) :
    Replies True (devicePort table) (quietContext _) table := by
  refine AnswersFrom.replies (fun key text htext s => ?_) (quietContext_undisturbed _)
  rw [validatedParameterCommand_ok htext]
  have htake : ("getvar:" ++ key).toList.take 7 = "getvar:".toList := by
    rw [String.toList_append]
    rfl
  have hdrop : ("getvar:" ++ key).toList.drop 7 = key.toList := by
    rw [String.toList_append]
    rfl
  simp only [devicePort, htake, hdrop, String.ofList_toList, if_true]
  exact ⟨_, rfl, rfl⟩

theorem Fits.validated {operation : PrimitiveOperation} {verb head : String} (h : Fits name)
    (hlength : verb.toList.length + head.toList.length ≤ 22)
    (hascii : isPrintableAscii head = true) :
    validatedParameterCommand operation verb (head ++ name) = .ok (verb ++ (head ++ name)) := by
  obtain ⟨hne, hname, hfits⟩ := h
  have hpos : name.toList.length ≠ 0 := by simpa using hne
  have hlist : (head ++ name).toList.length = head.toList.length + name.toList.length := by
    rw [String.toList_append, List.length_append]
  have hall : isPrintableAscii (head ++ name) = true := by
    unfold isPrintableAscii at hascii hname ⊢
    rw [String.toList_append, List.all_append, hascii, hname]
    rfl
  unfold validatedParameterCommand
  rw [if_neg (by omega), if_neg (by rw [hall]; decide), if_neg (by omega)]

namespace PublicFlash

/-- The device answers a query about a name that fits. -/
theorem queryOptional_device {E : OperationErrorPayload → List String → Prop} {head : String}
    (hname : Fits name) (hlength : head.toList.length ≤ 15)
    (hascii : isPrintableAscii head = true) :
    EndsWith (queryOptional (devicePort table) identifier (head ++ name)) sent
      (fun value _ => value = table.value (head ++ name)) E := by
  have hask : table.optional (head ++ name) = some (table.value (head ++ name)) := by
    rw [ReplyTable.optional, ReplyTable.ask, hname.validated (by
      have hverb : "getvar:".toList.length = 7 := rfl
      omega) hascii]
    rfl
  have hquery := queryOptional_decides (devicePort_replies table) identifier (head ++ name)
  rw [hask] at hquery
  exact hquery.returns trivial

variable {options : FlashOptions} {policy : SlotPolicy} {aospRawProfile : Bool}
  {targets : FlashTargets}

def smallPlan : SparseFlashPlan := ⟨[⟨smallImage, 0, 1⟩], false, 1, 1⟩

theorem create_small (target host : ℕ) :
    SparseFlashPlan.create (FlashArtifact.ofRaw smallImage) target host = .ok smallPlan := by
  refine if_pos ?_
  change 1 ≤ if target = 0 then uint32Max else min target uint32Max
  have hmax : 1 ≤ uint32Max := by decide
  split_ifs <;> omega

/-- The parts of the small image, if the first name of the targets is not found to be logical. -/
theorem planFlash_device (hfront : Fits (targets.partitions.headD partition))
    (hasked : aospRawProfile = false → ¬ table.Logical (targets.partitions.headD partition))
    (hcount : targets.partitions.length ≤ 26) :
    EndsWith (planFlash (devicePort table) (quietHost _) identifier (FlashArtifact.ofRaw smallImage)
        partition targets options aospRawProfile) sent
      (fun planned _ => planned.1 = [[1]]) fun _ _ => False := by
  refine EndsWith.bind (P := fun _ _ => True) ?_ fun _ sent _ =>
    EndsWith.bind (P := fun _ _ => True) ?_ fun _ sent _ =>
    EndsWith.bind (P := fun _ _ => True) ?_ fun maximum sent _ => ?_
  · cases aospRawProfile with
    | true => exact endsWith_pure trivial
    | false =>
        refine (queryOptional_device hfront (by decide) (by decide)).bind fun value sent hvalue => ?_
        rw [if_neg fun href => hasked rfl (ReplyTable.value_eq_some (hvalue.symm.trans href.1))]
        exact endsWith_pure trivial
  · unfold probePartitionSize
    split_ifs
    · refine (queryOptional_device hfront (by decide) (by decide)).bind fun _ sent _ => ?_
      refine (queryOptional_device hfront (by decide) (by decide)).bind fun _ sent _ => ?_
      exact endsWith_pure trivial
    · exact endsWith_pure trivial
  · unfold flashMaxDownloadSize
    split_ifs
    · have hquery : Fixed True (queryOptional (devicePort table) identifier "max-download-size")
          (some (table.value "max-download-size")) :=
        queryOptional_decides (devicePort_replies table) identifier "max-download-size"
      exact (hquery.returns trivial).bind fun _ sent _ => endsWith_pure trivial
    · exact endsWith_pure trivial
  · refine EndsWith.bind (P := fun plan _ => plan = smallPlan) ?_ fun plan sent hplan => ?_
    · unfold createPlan
      rw [create_small]
      rfl
    · subst hplan
      refine EndsWith.bind (P := fun sources _ => sources = [[1]]) rfl fun sources sent hsources => ?_
      rw [if_neg]
      · exact endsWith_pure hsources
      · rintro ⟨hmany, hlt⟩
        have hpos : 0 < (2 ^ 64 - 1) / targets.partitions.length :=
          Nat.div_pos (by omega) (by omega)
        exact absurd hlt (Nat.not_lt.mpr hpos)

/-- Up to the first part, nothing stops the flash of the small image. -/
theorem prepareFlash_device
    (htargets : table.targetsReported partition policy aospRawProfile = some targets)
    (hfront : Fits (targets.partitions.headD partition))
    (hasked : aospRawProfile = false → ¬ table.Logical (targets.partitions.headD partition)) :
    EndsWith (prepareFlash (devicePort table) (quietContext _) (quietHost _) identifier smallImage
        partition options policy aospRawProfile) sent
      (fun prepared _ => prepared.1 = targets ∧ prepared.2.1 = [[1]]) fun _ _ => False := by
  have hresolve := resolveTargets_decides (devicePort_replies table) identifier partition policy
    aospRawProfile
  rw [htargets] at hresolve
  refine EndsWith.bind (P := fun _ _ => True) trivial fun _ sent _ => ?_
  refine EndsWith.bind (P := fun artifact _ => artifact = FlashArtifact.ofRaw smallImage) ?_
    fun artifact sent hartifact => ?_
  · unfold prepareArtifact mutatedSource
    split_ifs <;> rfl
  subst hartifact
  refine EndsWith.bind (P := fun _ _ => True) trivial fun _ sent _ => ?_
  refine (hresolve.returns trivial).bind fun resolved sent hresolved => ?_
  subst hresolved
  refine (planFlash_device hfront hasked (targetsReported_length htargets)).bind
    fun planned sent hplanned => ?_
  refine EndsWith.bind (P := fun _ _ => True) trivial fun _ sent _ => ?_
  exact EndsWith.bind (P := fun _ _ => True) trivial fun _ sent _ => endsWith_pure ⟨rfl, hplanned⟩

theorem exec_flashPart_device (hname : Fits name) (completed total : ℕ) :
    exec (flashPart (devicePort table) identifier name [1] completed total) sent =
      (.ok (), sent ++ ["DATA"] ++ ["flash:" ++ name]) := by
  have hflash : validatedParameterCommand .flash "flash:" ("" ++ name) = _ :=
    hname.validated (by decide) (by decide)
  rw [String.empty_append] at hflash
  have hcommand : (devicePort table).command ("flash:" ++ name) =
      accepted ("flash:" ++ name) := by
    refine if_neg ?_
    rw [String.toList_append]
    exact fun h => by cases h
  have hsend : ∃ reply, exec (command (devicePort table) .flash ("flash:" ++ name))
      (sent ++ ["DATA"]) = (.ok reply, sent ++ ["DATA"] ++ ["flash:" ++ name]) := by
    unfold command
    rw [hcommand]
    exact ⟨_, rfl⟩
  obtain ⟨reply, hsend⟩ := hsend
  have hdownload : ∃ result, exec (downloadAndFlashSource (devicePort table) name (some [1])) sent
      = (.ok result, sent ++ ["DATA"] ++ ["flash:" ++ name]) := by
    unfold downloadAndFlashSource
    rw [hflash]
    change ∃ result, exec (command (devicePort table) .flash ("flash:" ++ name) >>= _)
      (sent ++ ["DATA"]) = (.ok result, _)
    rw [exec_bind, hsend]
    exact ⟨_, rfl⟩
  obtain ⟨result, hdownload⟩ := hdownload
  unfold flashPart
  rw [exec_attempt_bind, hdownload]
  rfl

end PublicFlash

/-! ### The names that are sent -/

theorem accepted_keeps {J : List String → Prop} {text : String}
    (h : ∀ sent, J sent → J (sent ++ [text])) : Keeps J (accepted text) := h

/-- What holds of the commands that the device keeps holds of it. -/
theorem devicePort_spares {P : String → Prop} {J : List String → Prop}
    (hdata : ∀ sent, J sent → J (sent ++ ["DATA"]))
    (hflash : ∀ name, P name → ∀ sent, J sent → J (sent ++ ["flash:" ++ name]))
    (hother : ∀ text, ¬ IsFlashCommand text → ∀ sent, J sent → J (sent ++ [text])) :
    Spares P J (devicePort table) (quietContext _) (quietHost _) := by
  have hcommand : ∀ text, (∀ sent, J sent → J (sent ++ [text])) →
      Keeps J ((devicePort table).command text) :=
    fun text h => keeps_pure.ite (accepted_keeps h)
  constructor
  case command => exact fun text htext => hcommand text (hother text htext)
  case receiveToSink => exact fun _ _ => keeps_throw
  case downloadAndFlashSource =>
    intro name hname source
    unfold downloadAndFlashSource
    cases hvld : validatedParameterCommand .flash "flash:" name with
    | error error => exact keeps_throw
    | ok text =>
        rw [validatedParameterCommand_ok hvld]
        refine (keeps_ofOutcome (validateDownloadSource source)).bind fun _ => Keeps.bind ?_
          fun _ => (command_keeps (hcommand _ (hflash name hname)) .flash).bind fun _ => keeps_pure
        refine (keeps_ofOutcome _).bind fun _ => (accepted_keeps hdata).attempt_bind fun outcome => ?_
        cases outcome with
        | error error => exact keeps_get_bind fun s => keeps_throw
        | ok result => exact keeps_throw.ite keeps_pure
  all_goals
    intros
    assumption

theorem devicePort_spares_mem (table : ReplyTable) (text : String) :
    Spares (fun _ => True) (fun sent => text ∈ sent) (devicePort table) (quietContext _)
      (quietHost _) :=
  devicePort_spares (fun _ hmem => List.mem_append_left _ hmem)
    (fun _ _ _ hmem => List.mem_append_left _ hmem) fun _ _ _ hmem => List.mem_append_left _ hmem

/-- What is sent for other partitions and besides is no flash command for this one. -/
theorem devicePort_spares_logical (hlogical : table.Logical name) :
    Spares (fun other => ¬ table.Logical other) (fun sent => "flash:" ++ name ∉ sent)
      (devicePort table) (quietContext _) (quietHost _) := by
  have happend : ∀ text, text ≠ "flash:" ++ name → ∀ sent, "flash:" ++ name ∉ sent →
      "flash:" ++ name ∉ sent ++ [text] := by
    intro text hne sent hsent hmem
    rcases List.mem_append.mp hmem with hmem | hmem
    · exact hsent hmem
    · exact hne (List.mem_singleton.mp hmem).symm
  have hflash : IsFlashCommand ("flash:" ++ name) := by
    rw [IsFlashCommand, String.toList_append]
    rfl
  refine devicePort_spares (happend _ fun heq => ?_) (fun other hother => happend _ fun heq => ?_)
    fun text htext => happend _ fun heq => htext (heq ▸ hflash)
  · rw [← heq] at hflash
    exact absurd hflash (by unfold IsFlashCommand; decide)
  · rw [String.append_right_inj] at heq
    exact hother (heq ▸ hlogical)

namespace PublicFlash

theorem flashPartitions_device (total completed : ℕ) {partitions : List String}
    (hfits : ∀ other ∈ partitions, Fits other) (hmem : name ∈ partitions) :
    "flash:" ++ name ∈ (exec (flashPartitions (devicePort table) identifier [[1]] total partitions
      completed) sent).2 := by
  induction partitions generalizing completed sent with
  | nil => exact absurd hmem List.not_mem_nil
  | cons front rest ih =>
      obtain ⟨hfront, hrest⟩ := List.forall_mem_cons.mp hfits
      have hexec : exec (flashPartitions (devicePort table) identifier [[1]] total (front :: rest)
          completed) sent = exec (flashPartitions (devicePort table) identifier [[1]] total rest
            ((completed + 1) % 2 ^ 64)) (sent ++ ["DATA"] ++ ["flash:" ++ front]) := by
        change exec (flashParts (devicePort table) identifier pure front total [[1]] completed >>= _)
          sent = _
        have hpart : exec (flashParts (devicePort table) identifier pure front total [[1]] completed)
            sent = (.ok ((completed + 1) % 2 ^ 64), sent ++ ["DATA"] ++ ["flash:" ++ front]) := by
          change exec (flashPart (devicePort table) identifier front [1] completed total >>= _) sent = _
          rw [exec_bind, exec_flashPart_device hfront]
          rfl
        rw [exec_bind, hpart]
      rw [hexec]
      rcases List.mem_cons.mp hmem with rfl | hmem
      · exact flashPartitions_keeps (devicePort_spares_mem _ _) _ _ (fun _ _ => trivial) _ _
          (List.mem_append_right _ (List.mem_singleton_self _))
      · exact ih _ hrest hmem

/-- A flash with an exposed name sends the flash command for it. -/
theorem flashSource_device
    (htargets : table.targetsReported partition policy aospRawProfile = some targets)
    (hfits : ∀ other ∈ targets.partitions, Fits other)
    (hasked : ∀ other ∈ if aospRawProfile then [] else targets.partitions.take 1,
      ¬ table.Logical other) (hmem : name ∈ targets.partitions) :
    "flash:" ++ name ∈ (exec (flashSource (devicePort table) (quietContext _) (quietHost _)
      identifier smallImage partition options policy aospRawProfile) []).2 := by
  have hspares := devicePort_spares_mem table ("flash:" ++ name)
  have hfront : Fits (targets.partitions.headD partition) ∧ (aospRawProfile = false →
      ¬ table.Logical (targets.partitions.headD partition)) := by
    cases hnames : targets.partitions with
    | nil =>
        rw [hnames] at hmem
        exact absurd hmem List.not_mem_nil
    | cons front rest =>
        rw [hnames] at hfits hasked
        refine ⟨hfits front List.mem_cons_self, fun hraw => hasked front ?_⟩
        rw [hraw]
        exact List.mem_singleton_self front
  have himage : EndsWith (flashImage (devicePort table) (quietContext _) (quietHost _) identifier
      smallImage partition options policy aospRawProfile) []
      (fun _ sent => "flash:" ++ name ∈ sent) fun _ sent => "flash:" ++ name ∈ sent := by
    refine EndsWith.bind ((prepareFlash_device htargets hfront.1 hfront.2).imp (fun _ _ h => h)
      fun _ _ h => h.elim) fun prepared sent hprepared => ?_
    obtain ⟨resolved, sources, total⟩ := prepared
    obtain ⟨rfl, rfl⟩ := hprepared
    refine EndsWith.bind (P := fun _ sent => "flash:" ++ name ∈ sent) (endsWith_iff_last.mpr
      (flashPartitions_device _ _ hfits hmem)) fun _ sent hsent => Keeps.endsWith ?_ hsent
    exact (checkCancelled_keeps hspares _).bind fun _ => keeps_pure
  refine endsWith_iff_last.mp (himage.bind fun ended sent hsent => Keeps.endsWith ?_ hsent)
  refine (activate_keeps hspares _).bind fun _ => ?_
  exact (checkCancelled_keeps hspares _).bind fun _ => checkProgress_keeps hspares _ _ _ _

end PublicFlash

/-- On a device that is not in userspace and without `force`, a flash and a repack send nothing for
a logical partition unless their names are exposed.  If the names of a flash are, and fit into the
commands for them, one that sends data and a flash command for a logical partition exists. -/
theorem logical_spared_iff (hbootloader : table "is-userspace" ≠ .okay "yes")
    {options : FlashOptions} (hforce : options.force = false) (partition : String)
    (policy : SlotPolicy) :
    (∀ aospRawProfile, ¬ table.FlashExposes partition policy aospRawProfile →
      FlashSpares table partition options policy aospRawProfile) ∧
    (∀ aospRawProfile, (∀ targets,
        table.targetsReported partition policy aospRawProfile = some targets →
        ∀ name ∈ targets.partitions, Fits name) →
      FlashSpares table partition options policy aospRawProfile →
      ¬ table.FlashExposes partition policy aospRawProfile) ∧
    (¬ table.RepackExposes partition policy → RepackSpares table partition options policy) := by
  refine ⟨fun aospRawProfile hsafe σ port context host identifier source hport => ?_,
    fun aospRawProfile hfits hspares hexposed => ?_,
    fun hsafe σ port context host identifier ramdiskName newRamdisk newDtb hport => ?_⟩
  · exact PublicFlash.flashSource_spares ⟨hport, False.elim, False.elim⟩ hbootloader hforce source
      hsafe
  · obtain ⟨targets, htargets, hasked, name, hmem, hlogical⟩ := hexposed
    have hdevice := hspares _ (devicePort table) (quietContext _) (quietHost _) "device" smallImage
      (devicePort_replies table).replies _ (devicePort_spares_logical hlogical) [] List.not_mem_nil
    exact hdevice (PublicFlash.flashSource_device htargets (hfits targets htargets) hasked hmem)
  · exact PublicFlash.vendorBootRamdisk_spares ⟨hport, False.elim, False.elim⟩ hbootloader hforce
      ramdiskName newRamdisk newDtb hsafe

end Device

/-! ### A device with a logical partition in its second slot -/

/-- A device in the bootloader with two slots; `system` is logical in the second one. -/
def logicalTable : ReplyTable := fun key =>
  if key = "slot-count" then .okay "2"
  else if key = "has-slot:system" then .okay "yes"
  else if key = "is-logical:system_b" then .okay "yes"
  else .fail "unknown variable"

/-- What the device keeps of a flash of `system` to a selection of slots. -/
def flashSystem (slot : String) : List String :=
  (exec (PublicFlash.flashSource (devicePort logicalTable) (quietContext _) (quietHost _) "device"
    smallImage "system" {} { slot := some slot } false) []).2

theorem flashSystem_all_overwrites :
    logicalTable "is-userspace" ≠ .okay "yes" ∧ logicalTable.Logical "system_b" ∧
      flashSystem "all" = ["DATA", "flash:system_a", "DATA", "flash:system_b"] := by
  unfold ReplyTable.Logical
  decide +kernel

/-- The flash to the first slot is safe, the one to all slots is not, and a repack is. -/
theorem flashSystem_a_spares :
    FlashSpares logicalTable "system" {} { slot := some "a" } false ∧
      ¬ FlashSpares logicalTable "system" {} { slot := some "all" } false ∧
      RepackSpares logicalTable "vendor_boot" {} {} := by
  have hbootloader : logicalTable "is-userspace" ≠ .okay "yes" := by decide
  refine ⟨?_, ?_, (logical_spared_iff hbootloader rfl "vendor_boot" {}).2.2 ?_⟩
  · refine (logical_spared_iff hbootloader rfl "system" { slot := some "a" }).1 false ?_
    rintro ⟨targets, htargets, -, name, hmem, hlogical⟩
    have hnames : logicalTable.targetsReported "system" { slot := some "a" } false
        = some ⟨["system_a"], none, none⟩ := by decide +kernel
    cases hnames.symm.trans htargets
    rw [List.mem_singleton] at hmem
    subst hmem
    exact absurd hlogical (by unfold ReplyTable.Logical; decide)
  · intro hspares
    have hnames : logicalTable.targetsReported "system" { slot := some "all" } false
        = some ⟨["system_a", "system_b"], none, none⟩ := by decide +kernel
    refine (logical_spared_iff hbootloader rfl "system" { slot := some "all" }).2.1 false
      (fun targets htargets => ?_) hspares ⟨_, hnames, ?_, "system_b", by decide, ?_⟩
    · cases hnames.symm.trans htargets
      unfold Fits
      decide
    · unfold ReplyTable.Logical
      decide
    · unfold ReplyTable.Logical
      decide
  · rintro ⟨names, hnames, hasked, name, hmem, hlogical⟩
    cases hnames
    exact hasked name hmem hlogical

end KairosBoot
