import Mathlib.Algebra.Order.BigOperators.Group.List
import VeilKnit.WalkTask.Publisher

/-!
# What a publication plans

The plan of a publication meets all the conditions that a reader's validator lists, whatever
entries it starts from: buckets are trimmed to a page's size, there are more page subkeys than
three generations can use, and a page that is kept is the one that would be written.
-/

namespace VeilKnit.WalkTask

open Library Types

section Plans

variable {Key : Type} (fmt : TableFormat Key)

/-! ## Sizes -/

/-- The size of a page without its entries. -/
def pageHeaderSize : Nat := 48

theorem serialize_length (page : RecordTablePage Key) : (page.serialize fmt).length =
    pageHeaderSize + ((RecordTableEntry.codec fmt.address).list.encode page.entries).length := by
  have hu8 (n : UInt8) : (Codec.u8.encode n).length = 1 := Codec.leBytes_length _ _
  have hu16 (n : UInt16) : (Codec.u16.encode n).length = 2 := Codec.leBytes_length _ _
  have hu64 (n : UInt64) : (Codec.u64.encode n).length = 8 := Codec.leBytes_length _ _
  have hdigest (d : Digest) : (digestCodec.encode d).length = 32 := d.property
  simp only [RecordTablePage.serialize, RecordTablePage.codec, magicCodec, Codec.imap, Codec.pair,
    List.length_append, hu8, hu16, hu64, hdigest, pageHeaderSize]
  omega

variable {page page' : RecordTablePage Key}

theorem decodePage_serialize (short : (page.serialize fmt).length ≤ recordTableMaxPageBytes) :
    decodePage fmt (page.serialize fmt) = .ok page := by
  have hlength := serialize_length fmt page
  have hnonempty : (RecordTablePage.codec fmt.address).encode page ≠ [] := by
    intro hnil
    rw [RecordTablePage.serialize, hnil, pageHeaderSize, List.length_nil] at hlength
    omega
  rw [decodePage, RecordTablePage.serialize, decodeBincodeLimited_encode hnonempty
    (le_trans short (by decide))]
  rfl

/-! ## Buckets -/

theorem fitPage_leads (bucket : UInt16) (n : Nat) (entries : List (RecordTableEntry Key)) :
    fitPage fmt bucket n entries <+: entries := by
  induction n generalizing entries with
  | zero => exact List.prefix_refl _
  | succ n ih =>
    rw [fitPage]
    split
    case isTrue => exact List.prefix_refl _
    case isFalse => exact (ih _).trans (List.dropLast_prefix entries)

/-- With as many removals as entries, what is left fits a page. -/
theorem fitPage_fits (bucket : UInt16) (n : Nat) (entries : List (RecordTableEntry Key))
    (hn : entries.length ≤ n) (hkept : fitPage fmt bucket n entries ≠ []) :
    ((pageOf 1 bucket (fitPage fmt bucket n entries)).serialize fmt).length ≤
      recordTableMaxPageBytes := by
  induction n generalizing entries with
  | zero =>
    obtain rfl := List.length_eq_zero_iff.mp (Nat.le_zero.mp hn)
    exact absurd rfl hkept
  | succ n ih =>
    rw [fitPage] at hkept ⊢
    split at hkept
    case isTrue hdone =>
      rw [if_pos hdone]
      rcases Bool.or_eq_true _ _ ▸ hdone with hempty | hsize
      · exact absurd (List.isEmpty_iff.mp hempty) hkept
      · exact of_decide_eq_true hsize
    case isFalse hmore =>
      rw [if_neg hmore]
      exact ih _ (by rw [List.length_dropLast]; omega) hkept

theorem admissibleEntries_sublist (entries : List (RecordTableEntry Key)) (seen : List String) :
    (admissibleEntries fmt entries seen).Sublist entries := by
  induction entries generalizing seen with
  | nil => exact List.Sublist.refl _
  | cons entry entries ih =>
    rw [admissibleEntries]
    split
    case isTrue => exact (ih seen).cons entry
    case isFalse => exact (ih _).cons_cons entry

theorem admissibleEntries_spec (entries : List (RecordTableEntry Key)) (seen : List String) :
    (∀ entry ∈ admissibleEntries fmt entries seen, recordTableEntryIsBounded entry ∧
      fmt.keys.text entry.theirAddress ∉ seen) ∧
    ((admissibleEntries fmt entries seen).map fun entry =>
      fmt.keys.text entry.theirAddress).Nodup := by
  induction entries generalizing seen with
  | nil => exact ⟨fun _ h => (by cases h), List.nodup_nil⟩
  | cons entry entries ih =>
    rw [admissibleEntries]
    split
    case isTrue => exact ih seen
    case isFalse hgood =>
    simp only [Bool.or_eq_true, Bool.not_eq_true', List.contains_iff_mem, not_or,
      Bool.not_eq_false] at hgood
    obtain ⟨hall, hnodup⟩ := ih (fmt.keys.text entry.theirAddress :: seen)
    refine ⟨?_, ?_⟩
    · intro e he
      rcases List.mem_cons.mp he with rfl | he
      · exact hgood
      · exact ⟨(hall e he).1, fun hseen => (hall e he).2 (List.mem_cons_of_mem _ hseen)⟩
    · rw [List.map_cons, List.nodup_cons]
      refine ⟨fun hmem => ?_, hnodup⟩
      obtain ⟨e, he, hsame⟩ := List.mem_map.mp hmem
      exact (hall e he).2 (hsame ▸ List.mem_cons_self)

/-- The entries that may be published in a bucket, by priority. -/
def bucketAdmissible (entries : List (RecordTableEntry Key)) (bucket : UInt16) :
    List (RecordTableEntry Key) :=
  (admissibleEntries fmt (entries.take recordTableMaxPublishedEntries) []).filter fun entry =>
    recordTableBucket fmt entry.theirAddress = bucket

theorem bucketEntries_leads (entries : List (RecordTableEntry Key)) (bucket : UInt16) :
    bucketEntries fmt entries bucket <+: bucketAdmissible fmt entries bucket :=
  (fitPage_leads fmt bucket _ _).trans (List.take_prefix _ _)

/-- The entries of a bucket make up a page. -/
structure Fitting (bucket : UInt16) (entries : List (RecordTableEntry Key)) : Prop where
  few : entries.length ≤ recordTableMaxEntriesPerBucket
  bounded : ∀ entry ∈ entries, recordTableEntryIsBounded entry
  bucket : ∀ entry ∈ entries, recordTableBucket fmt entry.theirAddress = bucket
  distinct : (entries.map fun entry => fmt.keys.text entry.theirAddress).Nodup
  short : ∀ page : RecordTablePage Key, page.entries = entries →
    (page.serialize fmt).length ≤ recordTableMaxPageBytes

variable {entries : List (RecordTableEntry Key)}

theorem encode_entries_perm {entries' : List (RecordTableEntry Key)} (h : entries.Perm entries') :
    ((RecordTableEntry.codec fmt.address).list.encode entries).length =
      ((RecordTableEntry.codec fmt.address).list.encode entries').length := by
  change (Codec.length.encode entries.length ++ _).length =
    (Codec.length.encode entries'.length ++ _).length
  rw [List.length_append, List.length_append, h.length_eq]
  exact congrArg _ (h.flatMap_right _).length_eq

variable {bucket : UInt16}

theorem bucketEntries_fitting (hkept : bucketEntries fmt entries bucket ≠ []) :
    Fitting fmt bucket (sortByAddress fmt (bucketEntries fmt entries bucket)) := by
  have hperm : (sortByAddress fmt (bucketEntries fmt entries bucket)).Perm
      (bucketEntries fmt entries bucket) := List.perm_insertionSort _ _
  have hlead := bucketEntries_leads fmt entries bucket
  obtain ⟨hall, hnodup⟩ := admissibleEntries_spec fmt
    (entries.take recordTableMaxPublishedEntries) []
  have hadmitted : ∀ entry ∈ sortByAddress fmt (bucketEntries fmt entries bucket),
      entry ∈ bucketAdmissible fmt entries bucket :=
    fun entry hentry => hlead.subset (hperm.mem_iff.mp hentry)
  refine ⟨?_, ?_, ?_, ?_, ?_⟩
  · rw [hperm.length_eq]
    exact (fitPage_leads fmt bucket _ _).length_le.trans (List.length_take_le _ _)
  · intro entry hentry
    exact (hall entry (List.mem_of_mem_filter (hadmitted entry hentry))).1
  · intro entry hentry
    simpa using (List.mem_filter.mp (hadmitted entry hentry)).2
  · rw [(hperm.map _).nodup_iff]
    exact hnodup.sublist ((hlead.sublist.trans List.filter_sublist).map _)
  · intro page hentries
    have hfits := fitPage_fits fmt bucket _ _ le_rfl hkept
    rw [serialize_length] at hfits ⊢
    rw [hentries, encode_entries_perm fmt hperm]
    exact hfits

theorem mem_bucketRecordTableEntries {kept : List (RecordTableEntry Key)}
    (h : (bucket, kept) ∈ bucketRecordTableEntries fmt entries) :
    bucket < recordTableBucketCount ∧ bucketEntries fmt entries bucket ≠ [] ∧
      kept = sortByAddress fmt (bucketEntries fmt entries bucket) := by
  obtain ⟨n, hn, hsome⟩ := List.mem_filterMap.mp h
  dsimp only at hsome
  split at hsome
  case isTrue => cases hsome
  case isFalse hne =>
  cases hsome
  refine ⟨?_, by simpa using hne, rfl⟩
  have hlt : n < 64 := List.mem_range.mp hn
  rw [UInt16.lt_iff_toNat_lt, UInt16.toNat_ofNat_of_lt' (by
    change n < 65536
    omega)]
  exact hlt

theorem buckets_distinct (entries : List (RecordTableEntry Key)) :
    ((bucketRecordTableEntries fmt entries).map Prod.fst).Nodup := by
  have hsub : ((bucketRecordTableEntries fmt entries).map Prod.fst).Sublist
      ((List.range recordTableBucketCount.toNat).map UInt16.ofNat) := by
    rw [bucketRecordTableEntries]
    generalize List.range recordTableBucketCount.toNat = ns
    induction ns with
    | nil => exact List.Sublist.refl _
    | cons n ns ih =>
      rw [List.filterMap_cons, List.map_cons]
      dsimp only
      split
      case h_1 => exact ih.cons _
      case h_2 bucket hsome =>
        split at hsome
        case isTrue => cases hsome
        case isFalse =>
          cases hsome
          exact ih.cons_cons _
  refine List.Nodup.sublist hsub ?_
  decide +kernel

theorem buckets_length (entries : List (RecordTableEntry Key)) :
    (bucketRecordTableEntries fmt entries).length ≤ 64 :=
  (List.length_filterMap_le _ _).trans (by simp [recordTableBucketCount])

/-! ## Pages and their descriptors -/

/-- A page as its descriptor says. -/
structure Describes (page : RecordTablePage Key) (descriptor : RecordTablePageDescriptor) :
    Prop where
  valid : validateRecordTablePage fmt page descriptor = .ok ()
  size : (page.serialize fmt).length = descriptor.serializedSize.toNat

/-- What the checks of a page come to. -/
structure PageMatches (page : RecordTablePage Key) (descriptor : RecordTablePageDescriptor) :
    Prop where
  magic : page.magic = recordTablePageMagic
  version : page.version = recordTableFormatVersion
  generation : page.generation = descriptor.generation
  bucket : page.bucket = descriptor.bucket
  count : UInt32.ofNat page.entries.length = descriptor.entryCount
  few : page.entries.length ≤ recordTableMaxEntriesPerBucket
  digest : page.digest = descriptor.digest
  bloom : appBloomForEntries page.entries = descriptor.appBloom
  bounded : ∀ entry ∈ page.entries, recordTableEntryIsBounded entry
  hashed : recordTablePageDigest fmt page = descriptor.digest

variable {descriptor : RecordTablePageDescriptor}

theorem validateRecordTablePage_ok_iff :
    validateRecordTablePage fmt page descriptor = .ok () ↔ PageMatches fmt page descriptor := by
  unfold validateRecordTablePage
  constructor
  · intro h
    split at h
    case isTrue => cases h
    case isFalse hmeta =>
    split at h
    case isTrue => cases h
    case isFalse hdigest =>
      simp only [not_or, not_not, not_lt, gt_iff_lt, ne_eq, List.any_eq_true,
        Bool.not_eq_true', not_exists, not_and, Bool.not_eq_false] at hmeta hdigest
      obtain ⟨h1, h2, h3, h4, h5, h6, h7, h8, h9⟩ := hmeta
      exact ⟨h1, h2, h3, h4, h5, h6, h7, h8, h9, hdigest⟩
  intro h
  rw [if_neg, if_neg (not_not_intro h.hashed)]
  simp only [not_or, not_not, not_lt, gt_iff_lt, ne_eq, List.any_eq_true,
    Bool.not_eq_true', not_exists, not_and, Bool.not_eq_false]
  exact ⟨h.magic, h.version, h.generation, h.bucket, h.count, h.few, h.digest, h.bloom, h.bounded⟩

theorem pageDigest_congr (h : page.unsigned = page'.unsigned) :
    recordTablePageDigest fmt page = recordTablePageDigest fmt page' := by
  rw [recordTablePageDigest, h, recordTablePageDigest]

theorem signedPage_digest (page : RecordTablePage Key) :
    recordTablePageDigest fmt (signedPage fmt page) = (signedPage fmt page).digest :=
  pageDigest_congr fmt rfl

theorem signedPage_unsigned (generation : UInt64) (bucket : UInt16)
    (entries : List (RecordTableEntry Key)) :
    (signedPage fmt (pageOf generation bucket entries)).unsigned =
      pageOf generation bucket entries := rfl

/-- A fresh page and the descriptor that is made of it. -/
theorem describes_descriptorOf
    (fits : Fitting fmt bucket entries) (subkey : Subkey) (generation : UInt64) :
    Describes fmt (signedPage fmt (pageOf generation bucket entries))
      (descriptorOf fmt subkey (signedPage fmt (pageOf generation bucket entries))) := by
  constructor
  · rw [validateRecordTablePage_ok_iff]
    exact ⟨rfl, rfl, rfl, rfl, rfl, fits.few, rfl, rfl, fits.bounded, signedPage_digest fmt _⟩
  · have hshort := fits.short (signedPage fmt (pageOf generation bucket entries)) rfl
    change _ = (UInt32.ofNat _).toNat
    rw [UInt32.toNat_ofNat_of_lt' (lt_of_le_of_lt hshort (by decide))]

/-- Pages with one digest have the same contents. -/
def NoCollisions (pages : List (RecordTablePage Key)) : Prop :=
  ∀ page ∈ pages, ∀ page' ∈ pages,
    recordTablePageDigest fmt page = recordTablePageDigest fmt page' →
      page.unsigned = page'.unsigned

variable {pages : List (RecordTablePage Key)}

theorem NoCollisions.mono {pages' : List (RecordTablePage Key)}
    (h : NoCollisions fmt pages') (hsub : pages ⊆ pages') : NoCollisions fmt pages :=
  fun page hpage page' hpage' => h page (hsub hpage) page' (hsub hpage')

/-- The pages that one descriptor describes have the same contents. -/
theorem Describes.entries_eq (free : NoCollisions fmt pages)
    (hpage : page ∈ pages) (hpage' : page' ∈ pages) (h : Describes fmt page descriptor)
    (h' : Describes fmt page' descriptor) : page = page' := by
  have hmatch := (validateRecordTablePage_ok_iff fmt).mp h.valid
  have hmatch' := (validateRecordTablePage_ok_iff fmt).mp h'.valid
  have hunsigned := free page hpage page' hpage' (hmatch.hashed.trans hmatch'.hashed.symm)
  have hdigest := hmatch.digest.trans hmatch'.digest.symm
  cases page
  cases page'
  simp only [RecordTablePage.unsigned, RecordTablePage.mk.injEq] at hunsigned hdigest ⊢
  exact ⟨hunsigned.1, hunsigned.2.1, hunsigned.2.2.1, hunsigned.2.2.2.1, hunsigned.2.2.2.2.1,
    hdigest⟩

/-! ## Manifests -/

/-- A descriptor within the limits of a generation. -/
structure DescriptorWithin (generation : UInt64) (page : RecordTablePageDescriptor) : Prop where
  first : recordTablePageStart ≤ page.subkey
  last : page.subkey ≤ recordTablePageEnd
  bucket : page.bucket < recordTableBucketCount
  nonzero : page.generation ≠ 0
  generation : page.generation ≤ generation
  count : page.entryCount.toNat ≤ recordTableMaxEntriesPerBucket
  size : page.serializedSize.toNat ≤ recordTableMaxPageBytes

theorem descriptorsAreValid_iff {generation : UInt64} {pages : List RecordTablePageDescriptor}
    {seenSubkeys : List Subkey} {seenBuckets : List UInt16} :
    descriptorsAreValid generation pages seenSubkeys seenBuckets ↔
      (∀ page ∈ pages, DescriptorWithin generation page ∧ page.subkey ∉ seenSubkeys ∧
        page.bucket ∉ seenBuckets) ∧
      (pages.map (·.subkey)).Nodup ∧ (pages.map (·.bucket)).Nodup := by
  induction pages generalizing seenSubkeys seenBuckets with
  | nil => simp [descriptorsAreValid]
  | cons page pages ih =>
    rw [descriptorsAreValid]
    split
    case isTrue hbad =>
      simp only [Bool.false_eq_true, false_iff, not_and]
      intro hall
      obtain ⟨hwithin, hsubkey, hbucket⟩ := hall page List.mem_cons_self
      obtain ⟨h1, h2, h3, h4, h5, h6, h7⟩ := hwithin
      simp only [Bool.or_eq_true, decide_eq_true_eq, List.contains_iff_mem] at hbad
      rcases hbad with (((((((hbad | hbad) | hbad) | hbad) | hbad) | hbad) | hbad) | hbad) | hbad
      · exact absurd h1 (UInt32.not_le.mpr hbad)
      · exact absurd h2 (UInt32.not_le.mpr hbad)
      · exact absurd h3 (UInt16.not_lt.mpr hbad)
      · exact absurd hbad h4
      · exact absurd h5 (UInt64.not_le.mpr hbad)
      · exact absurd h6 (Nat.not_le.mpr hbad)
      · exact absurd h7 (Nat.not_le.mpr hbad)
      · exact absurd hbad hsubkey
      · exact absurd hbad hbucket
    case isFalse hgood =>
    simp only [Bool.or_eq_true, decide_eq_true_eq, List.contains_iff_mem, not_or] at hgood
    obtain ⟨⟨⟨⟨⟨⟨⟨⟨h1, h2⟩, h3⟩, h4⟩, h5⟩, h6⟩, h7⟩, hsubkey⟩, hbucket⟩ := hgood
    have hwithin : DescriptorWithin generation page :=
      ⟨UInt32.not_lt.mp h1, UInt32.not_lt.mp h2, UInt16.not_le.mp h3, h4, UInt64.not_lt.mp h5,
        Nat.not_lt.mp h6, Nat.not_lt.mp h7⟩
    rw [ih, List.map_cons, List.map_cons, List.nodup_cons, List.nodup_cons, List.forall_mem_cons]
    simp only [List.mem_cons, not_or, List.mem_map]
    constructor
    · rintro ⟨hall, hsubkeys, hbuckets⟩
      refine ⟨⟨⟨hwithin, hsubkey, hbucket⟩, fun p hp => ?_⟩, ⟨?_, hsubkeys⟩, ?_, hbuckets⟩
      · exact ⟨(hall p hp).1, (hall p hp).2.1.2, (hall p hp).2.2.2⟩
      · rintro ⟨p, hp, hsame⟩
        exact (hall p hp).2.1.1 hsame
      · rintro ⟨p, hp, hsame⟩
        exact (hall p hp).2.2.1 hsame
    · rintro ⟨⟨-, hall⟩, ⟨hfirst, hsubkeys⟩, hfirst', hbuckets⟩
      refine ⟨fun p hp => ?_, hsubkeys, hbuckets⟩
      obtain ⟨hw, hs, hb⟩ := hall p hp
      exact ⟨hw, ⟨fun hsame => hfirst ⟨p, hp, hsame⟩, hs⟩, fun hsame => hfirst' ⟨p, hp, hsame⟩, hb⟩

/-- What the checks of a manifest come to. -/
structure ManifestValid (manifest : RecordTableManifest) : Prop where
  magic : manifest.magic = recordTableManifestMagic
  version : manifest.version = recordTableFormatVersion
  bucketCount : manifest.bucketCount = recordTableBucketCount
  few : manifest.pages.length ≤ 64
  total : manifest.totalEntries.toNat ≤ recordTableMaxPublishedEntries
  within : ∀ page ∈ manifest.pages, DescriptorWithin manifest.generation page
  subkeys : (manifest.pages.map (·.subkey)).Nodup
  buckets : (manifest.pages.map (·.bucket)).Nodup
  sum : (manifest.pages.map (·.entryCount.toNat)).sum = manifest.totalEntries.toNat
  bloom : unionOfBlooms manifest.pages = manifest.appBloom
  root : recordTableRootHash fmt manifest.generation manifest.totalEntries manifest.pages =
    manifest.tableRootHash
  digest : recordTableManifestDigest fmt manifest = manifest.digest

variable {manifest : RecordTableManifest}

theorem validateRecordTableManifest_ok_iff :
    validateRecordTableManifest fmt manifest = .ok () ↔ ManifestValid fmt manifest := by
  have hshape : (∀ page ∈ manifest.pages, DescriptorWithin manifest.generation page ∧
      page.subkey ∉ ([] : List Subkey) ∧ page.bucket ∉ ([] : List UInt16)) ↔
      ∀ page ∈ manifest.pages, DescriptorWithin manifest.generation page := by simp
  unfold validateRecordTableManifest
  constructor
  · intro h
    split at h
    case isTrue => cases h
    case isFalse h1 =>
    split at h
    case isTrue => cases h
    case isFalse h2 =>
    split at h
    case isTrue => cases h
    case isFalse h3 =>
    split at h
    case isTrue => cases h
    case isFalse h4 =>
    split at h
    case isTrue => cases h
    case isFalse h5 =>
    split at h
    case isTrue => cases h
    case isFalse h6 =>
    rw [not_not, descriptorsAreValid_iff, hshape] at h2
    simp only [not_or, not_not, ne_eq, gt_iff_lt, not_lt] at h1 h3 h4 h5 h6
    exact ⟨h1.1, h1.2.1, h1.2.2.1, h1.2.2.2.1, h1.2.2.2.2, h2.1, h2.2.1, h2.2.2, h3, h4, h5, h6⟩
  intro h
  have h2 : descriptorsAreValid manifest.generation manifest.pages [] [] := by
    rw [descriptorsAreValid_iff, hshape]
    exact ⟨h.within, h.subkeys, h.buckets⟩
  rw [if_neg, if_neg (not_not_intro h2), if_neg (not_not_intro h.sum),
    if_neg (not_not_intro h.bloom), if_neg (not_not_intro h.root),
    if_neg (not_not_intro h.digest)]
  simp only [not_or, not_not, ne_eq, gt_iff_lt, not_lt]
  exact ⟨h.magic, h.version, h.bucketCount, h.few, h.total⟩

/-! ## Generations and free subkeys -/

variable {publisher : RecordTablePublisher}

theorem le_nextGeneration (h : publisher.currentManifest = some manifest) :
    manifest.generation ≤ nextGeneration publisher := by
  have hadd : manifest.generation ≤ saturatingAdd manifest.generation 1 := by
    rw [UInt64.le_iff_toNat_le, saturatingAdd_toNat]
    have hlt := manifest.generation.toNat_lt
    exact le_min (Nat.le_add_right _ _) (by omega)
  rw [nextGeneration, h]
  exact UInt64.le_trans hadd (le_max_left' _ 1)

theorem nextGeneration_ne_zero (publisher : RecordTablePublisher) :
    nextGeneration publisher ≠ 0 := by
  unfold nextGeneration
  split
  case h_1 => decide
  case h_2 => exact max_one_ne_zero _

theorem pageSubkeys_nodup : pageSubkeys.Nodup := by
  refine List.nodup_range.map_on fun a ha b hb heq => ?_
  have ha : a < 199 := List.mem_range.mp ha
  have hb : b < 199 := List.mem_range.mp hb
  have hnat := congrArg UInt32.toNat ((UInt32.add_right_inj _).mp heq)
  rw [UInt32.toNat_ofNat', UInt32.toNat_ofNat'] at hnat
  omega

theorem pageSubkeys_range : ∀ subkey ∈ pageSubkeys,
    recordTablePageStart ≤ subkey ∧ subkey ≤ recordTablePageEnd := by
  have hall : (pageSubkeys.all fun subkey =>
      decide (recordTablePageStart ≤ subkey ∧ subkey ≤ recordTablePageEnd)) = true := by
    decide +kernel
  exact fun subkey h => of_decide_eq_true (List.all_eq_true.mp hall subkey h)

theorem freeSubkeys_nodup (publisher : RecordTablePublisher) : (freeSubkeys publisher).Nodup :=
  pageSubkeys_nodup.filter _

theorem mem_freeSubkeys {subkey : Subkey} :
    subkey ∈ freeSubkeys publisher ↔ subkey ∈ pageSubkeys ∧ subkey ∉ unavailable publisher := by
  simp [freeSubkeys]

theorem unavailable_length
    (current : ∀ manifest, publisher.currentManifest = some manifest → manifest.pages.length ≤ 64)
    (previous : ∀ manifest, publisher.previousManifest = some manifest →
      manifest.pages.length ≤ 64) : (unavailable publisher).length ≤ 128 := by
  have hone (manifest : Option RecordTableManifest)
      (h : ∀ m, manifest = some m → m.pages.length ≤ 64) :
      (manifest.toList.flatMap fun m => m.pages.map (·.subkey)).length ≤ 64 := by
    cases manifest with
    | none => exact Nat.zero_le _
    | some m => simpa using h m rfl
  have h₁ := hone _ current
  have h₂ := hone _ previous
  rw [unavailable, List.flatMap_append, List.length_append]
  omega

/-- Three generations of pages fit side by side. -/
theorem freeSubkeys_length
    (h : (unavailable publisher).length ≤ 128) : 64 ≤ (freeSubkeys publisher).length := by
  have hused : (pageSubkeys.filter fun subkey => (unavailable publisher).contains subkey).length ≤
      (unavailable publisher).length := by
    refine List.Subperm.length_le (List.subperm_of_subset (pageSubkeys_nodup.filter _) ?_)
    intro subkey hsubkey
    simpa using (List.mem_filter.mp hsubkey).2
  have hsplit := List.length_eq_length_filter_add (l := pageSubkeys) fun subkey =>
    (unavailable publisher).contains subkey
  have hall : pageSubkeys.length = 199 := by simp [pageSubkeys, recordTablePageSlotCount]
  have hfree : freeSubkeys publisher =
      pageSubkeys.filter fun subkey => ! (unavailable publisher).contains subkey := rfl
  rw [hfree]
  omega

/-! ## Plans -/

/-- The pages of the current manifest. -/
def currentPages (publisher : RecordTablePublisher) : List RecordTablePageDescriptor :=
  publisher.currentManifest.elim [] (·.pages)

/-- The pages that a publication may hash: for every bucket the new one, and the one that is
compared with the current descriptor. -/
def plannedPages (publisher : RecordTablePublisher) (entries : List (RecordTableEntry Key)) :
    List (RecordTablePage Key) :=
  (bucketRecordTableEntries fmt entries).flatMap fun bucket =>
    signedPage fmt (pageOf (nextGeneration publisher) bucket.1 bucket.2) ::
      ((currentPages publisher).filter fun page => page.bucket = bucket.1).map fun page =>
        signedPage fmt (pageOf page.generation bucket.1 bucket.2)

/-- How the buckets are planned, one after the other. -/
inductive Planned (publisher : RecordTablePublisher) :
    List (UInt16 × List (RecordTableEntry Key)) → List Subkey →
      List RecordTablePageDescriptor → List (RecordTablePageDescriptor × Bytes) → Prop
  | nil {free : List Subkey} : Planned publisher [] free [] []
  | reuse {bucket : UInt16} {entries : List (RecordTableEntry Key)}
      {buckets : List (UInt16 × List (RecordTableEntry Key))} {free : List Subkey}
      {descriptor : RecordTablePageDescriptor} {descriptors : List RecordTablePageDescriptor}
      {writes : List (RecordTablePageDescriptor × Bytes)} :
      reusable fmt publisher.currentManifest bucket entries = some descriptor →
      Planned publisher buckets free descriptors writes →
      Planned publisher ((bucket, entries) :: buckets) free (descriptor :: descriptors) writes
  | fresh {bucket : UInt16} {entries : List (RecordTableEntry Key)}
      {buckets : List (UInt16 × List (RecordTableEntry Key))} {subkey : Subkey}
      {free : List Subkey} {descriptors : List RecordTablePageDescriptor}
      {writes : List (RecordTablePageDescriptor × Bytes)} :
      Planned publisher buckets free descriptors writes →
      Planned publisher ((bucket, entries) :: buckets) (subkey :: free)
        (descriptorOf fmt subkey
          (signedPage fmt (pageOf (nextGeneration publisher) bucket entries)) :: descriptors)
        ((descriptorOf fmt subkey
            (signedPage fmt (pageOf (nextGeneration publisher) bucket entries)),
          (signedPage fmt (pageOf (nextGeneration publisher) bucket entries)).serialize fmt) ::
          writes)

/-- With enough free subkeys and fitting buckets the plan is made. -/
theorem planPages_planned
    {buckets : List (UInt16 × List (RecordTableEntry Key))} {free : List Subkey}
    (hfree : buckets.length ≤ free.length)
    (fits : ∀ bucket ∈ buckets, Fitting fmt bucket.1 bucket.2) :
    ∃ descriptors writes, planPages fmt publisher buckets free = .ok (descriptors, writes) ∧
      Planned fmt publisher buckets free descriptors writes := by
  induction buckets generalizing free with
  | nil => exact ⟨[], [], rfl, .nil⟩
  | cons bucket buckets ih =>
    obtain ⟨bucket, entries⟩ := bucket
    have hrest := fun b hb => fits b (List.mem_cons_of_mem _ hb)
    cases hreuse : reusable fmt publisher.currentManifest bucket entries with
    | some descriptor =>
      obtain ⟨descriptors, writes, hplan, hplanned⟩ := ih (le_trans (Nat.le_succ _) hfree) hrest
      refine ⟨descriptor :: descriptors, writes, ?_, .reuse hreuse hplanned⟩
      simp only [planPages, hreuse, hplan]
      rfl
    | none =>
      cases free with
      | nil => exact absurd hfree (Nat.not_succ_le_zero _)
      | cons subkey free =>
        obtain ⟨descriptors, writes, hplan, hplanned⟩ := @ih free
          (Nat.le_of_succ_le_succ hfree) hrest
        refine ⟨_, _, ?_, .fresh hplanned⟩
        have hshort := (fits _ List.mem_cons_self).short
          (signedPage fmt (pageOf (nextGeneration publisher) bucket entries)) rfl
        simp only [planPages, hreuse, hplan, gt_iff_lt, not_lt.mpr hshort, if_false]
        rfl

section Sound

variable {publisher : RecordTablePublisher}
  {buckets : List (UInt16 × List (RecordTableEntry Key))} {free : List Subkey}
  {descriptors : List RecordTablePageDescriptor}
  {writes : List (RecordTablePageDescriptor × Bytes)}

theorem Planned.sublist (h : Planned fmt publisher buckets free descriptors writes) :
    (writes.map fun write => write.1.subkey).Sublist free := by
  induction h with
  | nil => exact List.nil_sublist _
  | reuse _ _ ih => exact ih
  | fresh _ ih => exact ih.cons_cons _

/-- What is kept or written for a bucket. -/
inductive PlannedAs (publisher : RecordTablePublisher) (free : List Subkey)
    (writes : List (RecordTablePageDescriptor × Bytes))
    (bucket : UInt16 × List (RecordTableEntry Key)) (descriptor : RecordTablePageDescriptor) : Prop
  | reuse : reusable fmt publisher.currentManifest bucket.1 bucket.2 = some descriptor →
      PlannedAs publisher free writes bucket descriptor
  | fresh (subkey : Subkey) : subkey ∈ free →
      descriptor = descriptorOf fmt subkey
        (signedPage fmt (pageOf (nextGeneration publisher) bucket.1 bucket.2)) →
      (descriptor, (signedPage fmt
        (pageOf (nextGeneration publisher) bucket.1 bucket.2)).serialize fmt) ∈ writes →
      PlannedAs publisher free writes bucket descriptor

variable {bucket : UInt16 × List (RecordTableEntry Key)} {descriptor : RecordTablePageDescriptor}

theorem PlannedAs.mono {free' : List Subkey} {writes' : List (RecordTablePageDescriptor × Bytes)}
    (h : PlannedAs fmt publisher free writes bucket descriptor) (hfree : free ⊆ free')
    (hwrites : writes ⊆ writes') :
    PlannedAs fmt publisher free' writes' bucket descriptor := by
  cases h with
  | reuse hreuse => exact .reuse hreuse
  | fresh subkey hsubkey hdescriptor hwrite =>
    exact .fresh subkey (hfree hsubkey) hdescriptor (hwrites hwrite)

theorem Planned.of_descriptor (h : Planned fmt publisher buckets free descriptors writes)
    (hdescriptor : descriptor ∈ descriptors) :
    ∃ bucket ∈ buckets, PlannedAs fmt publisher free writes bucket descriptor := by
  induction h with
  | nil => cases hdescriptor
  | reuse hreuse _ ih =>
    rcases List.mem_cons.mp hdescriptor with rfl | hdescriptor
    · exact ⟨_, List.mem_cons_self, .reuse hreuse⟩
    · obtain ⟨bucket, hbucket, hplanned⟩ := ih hdescriptor
      exact ⟨bucket, List.mem_cons_of_mem _ hbucket, hplanned⟩
  | fresh _ ih =>
    rcases List.mem_cons.mp hdescriptor with rfl | hdescriptor
    · exact ⟨_, List.mem_cons_self, .fresh _ List.mem_cons_self rfl List.mem_cons_self⟩
    · obtain ⟨bucket, hbucket, hplanned⟩ := ih hdescriptor
      exact ⟨bucket, List.mem_cons_of_mem _ hbucket,
        hplanned.mono fmt (List.subset_cons_self _ _) (List.subset_cons_self _ _)⟩

/-- Every write is the page of a descriptor. -/
theorem Planned.of_write (h : Planned fmt publisher buckets free descriptors writes)
    {write : RecordTablePageDescriptor × Bytes} (hwrite : write ∈ writes) :
    write.1 ∈ descriptors ∧ ∃ bucket ∈ buckets, ∃ subkey ∈ free,
      write = (descriptorOf fmt subkey
          (signedPage fmt (pageOf (nextGeneration publisher) bucket.1 bucket.2)),
        (signedPage fmt (pageOf (nextGeneration publisher) bucket.1 bucket.2)).serialize fmt) := by
  induction h with
  | nil => cases hwrite
  | reuse _ _ ih =>
    obtain ⟨hdescriptor, bucket, hbucket, hrest⟩ := ih hwrite
    exact ⟨List.mem_cons_of_mem _ hdescriptor, bucket, List.mem_cons_of_mem _ hbucket, hrest⟩
  | fresh _ ih =>
    rcases List.mem_cons.mp hwrite with rfl | hwrite
    · exact ⟨List.mem_cons_self, _, List.mem_cons_self, _, List.mem_cons_self, rfl⟩
    · obtain ⟨hdescriptor, bucket, hbucket, subkey, hsubkey, hrest⟩ := ih hwrite
      exact ⟨List.mem_cons_of_mem _ hdescriptor, bucket, List.mem_cons_of_mem _ hbucket, subkey,
        List.mem_cons_of_mem _ hsubkey, hrest⟩

/-- What it takes for a descriptor to be kept. -/
structure Reused (publisher : RecordTablePublisher) (bucket : UInt16)
    (entries : List (RecordTableEntry Key)) (descriptor : RecordTablePageDescriptor) : Prop where
  current : descriptor ∈ currentPages publisher
  ofBucket : descriptor.bucket = bucket
  digest : (signedPage fmt (pageOf descriptor.generation bucket entries)).digest = descriptor.digest

variable {entries : List (RecordTableEntry Key)}

theorem reused_of_reusable {bucket : UInt16}
    (h : reusable fmt publisher.currentManifest bucket entries = some descriptor) :
    Reused fmt publisher bucket entries descriptor := by
  obtain ⟨hfound, hsame⟩ := Option.filter_eq_some_iff.mp h
  simp only [Bool.and_eq_true, decide_eq_true_eq] at hsame
  exact ⟨List.mem_reverse.mp (List.mem_of_find?_eq_some hfound),
    by simpa using List.find?_some hfound, hsame.1.1⟩

theorem Planned.buckets_eq (h : Planned fmt publisher buckets free descriptors writes) :
    descriptors.map (·.bucket) = buckets.map Prod.fst := by
  induction h with
  | nil => rfl
  | reuse hreuse _ ih =>
    rw [List.map_cons, List.map_cons, ih, (reused_of_reusable fmt hreuse).ofBucket]
  | fresh _ ih =>
    rw [List.map_cons, List.map_cons, ih]
    rfl

/-- No subkey is used for two buckets. -/
theorem Planned.subkeys_nodup (h : Planned fmt publisher buckets free descriptors writes)
    (hfree : free.Nodup) (apart : ∀ subkey ∈ free, subkey ∉ (currentPages publisher).map (·.subkey))
    (current : ((currentPages publisher).map (·.subkey)).Nodup)
    (distinct : (buckets.map Prod.fst).Nodup) : (descriptors.map (·.subkey)).Nodup := by
  induction h with
  | nil => exact List.nodup_nil
  | @reuse bucket entries buckets free descriptor descriptors writes hreuse hrest ih =>
    obtain ⟨hnew, hdistinct⟩ := List.nodup_cons.mp distinct
    rw [List.map_cons, List.nodup_cons]
    refine ⟨fun hmem => ?_, ih hfree apart hdistinct⟩
    obtain ⟨other, hother, hsame⟩ := List.mem_map.mp hmem
    have hreused := reused_of_reusable fmt hreuse
    obtain ⟨b, hb, hplanned⟩ := hrest.of_descriptor fmt hother
    cases hplanned with
    | reuse hreuse' =>
      -- Two kept descriptors of one subkey are one, and so are their buckets.
      have hreused' := reused_of_reusable fmt hreuse'
      have heq : other = descriptor :=
        List.inj_on_of_nodup_map current hreused'.current hreused.current hsame
      refine hnew (List.mem_map.mpr ⟨b, hb, ?_⟩)
      rw [← hreused'.ofBucket, heq, hreused.ofBucket]
    | fresh subkey hsubkey hdescriptor _ =>
      refine apart subkey hsubkey (List.mem_map.mpr ⟨descriptor, hreused.current, ?_⟩)
      rw [← hsame, hdescriptor]
      rfl
  | @fresh bucket entries buckets subkey free descriptors writes hrest ih =>
    obtain ⟨hsubkey, hfree⟩ := List.nodup_cons.mp hfree
    obtain ⟨hnew, hdistinct⟩ := List.nodup_cons.mp distinct
    rw [List.map_cons, List.nodup_cons]
    refine ⟨fun hmem => ?_, ih hfree (fun k hk => apart k (List.mem_cons_of_mem _ hk)) hdistinct⟩
    obtain ⟨other, hother, hsame⟩ := List.mem_map.mp hmem
    obtain ⟨b, hb, hplanned⟩ := hrest.of_descriptor fmt hother
    cases hplanned with
    | reuse hreuse =>
      exact apart subkey List.mem_cons_self
        (List.mem_map.mpr ⟨other, (reused_of_reusable fmt hreuse).current, hsame⟩)
    | fresh subkey' hsubkey' hdescriptor _ =>
      have heq : other.subkey = subkey' := by
        rw [hdescriptor]
        rfl
      have hsame' : other.subkey = subkey := hsame
      rw [heq] at hsame'
      exact hsubkey (hsame' ▸ hsubkey')

/-- The publisher's manifest, with a known page for every descriptor. -/
structure ManifestSound (pages : List (RecordTablePage Key)) (manifest : RecordTableManifest) :
    Prop where
  valid : ManifestValid fmt manifest
  described : ∀ descriptor ∈ manifest.pages, ∃ page ∈ pages, Describes fmt page descriptor

structure PublisherSound (pages : List (RecordTablePage Key)) (publisher : RecordTablePublisher) :
    Prop where
  current : ∀ manifest, publisher.currentManifest = some manifest → ManifestSound fmt pages manifest
  previous : ∀ manifest, publisher.previousManifest = some manifest →
    ManifestSound fmt pages manifest

theorem mem_currentPages (h : descriptor ∈ currentPages publisher) :
    ∃ manifest, publisher.currentManifest = some manifest ∧ descriptor ∈ manifest.pages := by
  unfold currentPages at h
  cases hcurrent : publisher.currentManifest with
  | none =>
    rw [hcurrent] at h
    cases h
  | some manifest =>
    rw [hcurrent] at h
    exact ⟨manifest, rfl, h⟩

variable {pages : List (RecordTablePage Key)}

theorem currentPages_subkeys_nodup (h : PublisherSound fmt pages publisher) :
    ((currentPages publisher).map (·.subkey)).Nodup := by
  unfold currentPages
  cases hcurrent : publisher.currentManifest with
  | none => exact List.nodup_nil
  | some manifest => exact (h.current manifest hcurrent).valid.subkeys

theorem current_unavailable
    (h : descriptor ∈ currentPages publisher) : descriptor.subkey ∈ unavailable publisher := by
  obtain ⟨manifest, hcurrent, hmem⟩ := mem_currentPages h
  refine List.mem_flatMap.mpr ⟨manifest, ?_, List.mem_map_of_mem hmem⟩
  rw [hcurrent]
  exact List.mem_append_left _ List.mem_cons_self

/-- The page that a kept descriptor stands for. -/
theorem reused_describes (sound : PublisherSound fmt pages publisher)
    (collisions : NoCollisions fmt (pages ++ plannedPages fmt publisher entries))
    (hbucket : bucket ∈ bucketRecordTableEntries fmt entries)
    (h : Reused fmt publisher bucket.1 bucket.2 descriptor) :
    signedPage fmt (pageOf descriptor.generation bucket.1 bucket.2) ∈
      plannedPages fmt publisher entries ∧
    Describes fmt (signedPage fmt (pageOf descriptor.generation bucket.1 bucket.2)) descriptor := by
  have hplanned : signedPage fmt (pageOf descriptor.generation bucket.1 bucket.2) ∈
      plannedPages fmt publisher entries := by
    refine List.mem_flatMap.mpr ⟨bucket, hbucket, List.mem_cons_of_mem _ ?_⟩
    exact List.mem_map.mpr ⟨descriptor, List.mem_filter.mpr ⟨h.current, by simpa using h.ofBucket⟩,
      rfl⟩
  obtain ⟨manifest, hcurrent, hmem⟩ := mem_currentPages h.current
  obtain ⟨page, hpage, hdescribes⟩ := (sound.current manifest hcurrent).described descriptor hmem
  have hmatch := (validateRecordTablePage_ok_iff fmt).mp hdescribes.valid
  have hunsigned := collisions page (List.mem_append_left _ hpage) _
    (List.mem_append_right _ hplanned)
    (hmatch.hashed.trans (h.digest.symm.trans (signedPage_digest fmt _).symm))
  have heq : page = signedPage fmt (pageOf descriptor.generation bucket.1 bucket.2) := by
    have hdigest := hmatch.digest.trans h.digest.symm
    rw [signedPage_unsigned] at hunsigned
    cases page
    simp only [RecordTablePage.unsigned, signedPage, pageOf, RecordTablePage.mk.injEq] at *
    exact ⟨hunsigned.1, hunsigned.2.1, hunsigned.2.2.1, hunsigned.2.2.2.1, hunsigned.2.2.2.2.1,
      hdigest⟩
  exact ⟨hplanned, heq ▸ hdescribes⟩

/-- Whether kept or new, a planned descriptor is within its limits. -/
theorem PlannedAs.within (sound : PublisherSound fmt pages publisher) (hfree : free ⊆ pageSubkeys)
    (hbucket : bucket ∈ bucketRecordTableEntries fmt entries)
    (h : PlannedAs fmt publisher free writes bucket descriptor) :
    DescriptorWithin (nextGeneration publisher) descriptor := by
  cases h with
  | reuse hreuse =>
    obtain ⟨manifest, hcurrent, hmem⟩ := mem_currentPages (reused_of_reusable fmt hreuse).current
    have hwithin := (sound.current manifest hcurrent).valid.within descriptor hmem
    exact { hwithin with
      generation := UInt64.le_trans hwithin.generation (le_nextGeneration hcurrent) }
  | fresh subkey hsubkey hdescriptor _ =>
    obtain ⟨hlt, hkept, hsort⟩ := mem_bucketRecordTableEntries fmt hbucket
    have hfits := bucketEntries_fitting fmt hkept
    rw [← hsort] at hfits
    obtain ⟨hfirst, hlast⟩ := pageSubkeys_range subkey (hfree hsubkey)
    have hshort := hfits.short (signedPage fmt
      (pageOf (nextGeneration publisher) bucket.1 bucket.2)) rfl
    subst hdescriptor
    refine ⟨hfirst, hlast, hlt, nextGeneration_ne_zero publisher, UInt64.le_refl _, ?_, ?_⟩
    · exact (UInt32.toNat_ofNat_of_lt' (lt_of_le_of_lt hfits.few (by decide))).le.trans hfits.few
    · exact (UInt32.toNat_ofNat_of_lt' (lt_of_le_of_lt hshort (by decide))).le.trans hshort

end Sound

/-! ## What a plan comes to -/

/-- The new page of a bucket. -/
def freshPage (publisher : RecordTablePublisher) (bucket : UInt16 × List (RecordTableEntry Key)) :
    RecordTablePage Key :=
  signedPage fmt (pageOf (nextGeneration publisher) bucket.1 bucket.2)

structure PlanSound (publisher : RecordTablePublisher) (entries : List (RecordTableEntry Key))
    (plan : PublishPlan) : Prop where
  generation : plan.generation = nextGeneration publisher
  valid : ∀ now, ManifestValid fmt (buildManifest fmt publisher plan now)
  distinct : (plan.writes.map (·.1.subkey)).Nodup
  free : ∀ write ∈ plan.writes, write.1.subkey ∈ freeSubkeys publisher
  fresh : ∀ write ∈ plan.writes, write.1 ∈ plan.descriptors ∧
    ∃ bucket ∈ bucketRecordTableEntries fmt entries,
      write = (descriptorOf fmt write.1.subkey (freshPage fmt publisher bucket),
        (freshPage fmt publisher bucket).serialize fmt)
  buckets : (plan.descriptors.map (·.bucket)).Perm
    ((bucketRecordTableEntries fmt entries).map Prod.fst)
  planned : ∀ descriptor ∈ plan.descriptors, ∃ bucket ∈ bucketRecordTableEntries fmt entries,
    PlannedAs fmt publisher (freeSubkeys publisher) plan.writes bucket descriptor

theorem sum_le_of_forall_le (counts : List Nat) (bound : Nat) (h : ∀ count ∈ counts, count ≤ bound) :
    counts.sum ≤ counts.length * bound := by
  simpa using List.sum_le_card_nsmul counts bound h

theorem planPublish_sound
    (sound : PublisherSound fmt pages publisher) (entries : List (RecordTableEntry Key)) :
    ∃ plan, planPublish fmt publisher entries = .ok plan ∧
      PlanSound fmt publisher entries plan := by
  have hunavailable := unavailable_length (fun manifest h => (sound.current manifest h).valid.few)
    (fun manifest h => (sound.previous manifest h).valid.few)
  have hfits : ∀ bucket ∈ bucketRecordTableEntries fmt entries, Fitting fmt bucket.1 bucket.2 := by
    intro bucket hbucket
    obtain ⟨-, hkept, hsort⟩ := mem_bucketRecordTableEntries fmt hbucket
    exact hsort ▸ bucketEntries_fitting fmt hkept
  obtain ⟨descriptors, writes, hplan, hplanned⟩ := planPages_planned fmt
    (le_trans (buckets_length fmt entries) (freeSubkeys_length hunavailable)) hfits
  have hsub : freeSubkeys publisher ⊆ pageSubkeys := fun k hk => (mem_freeSubkeys.mp hk).1
  have hperm : (descriptors.insertionSort fun left right => left.bucket ≤ right.bucket).Perm
      descriptors := List.perm_insertionSort _ _
  have hwithin : ∀ d ∈ descriptors.insertionSort fun left right => left.bucket ≤ right.bucket,
      DescriptorWithin (nextGeneration publisher) d := by
    intro d hd
    obtain ⟨bucket, hbucket, has⟩ := hplanned.of_descriptor fmt (hperm.mem_iff.mp hd)
    exact has.within fmt sound hsub hbucket
  have hlength : descriptors.length ≤ 64 := by
    have hbuckets := congrArg List.length (hplanned.buckets_eq fmt)
    rw [List.length_map, List.length_map] at hbuckets
    exact hbuckets ▸ buckets_length fmt entries
  have hsum : ((descriptors.insertionSort fun left right => left.bucket ≤ right.bucket).map
      (·.entryCount.toNat)).sum ≤ 4096 := by
    refine (sum_le_of_forall_le _ 64 ?_).trans ?_
    · intro count hcount
      obtain ⟨d, hd, rfl⟩ := List.mem_map.mp hcount
      exact (hwithin d hd).count
    · rw [List.length_map, hperm.length_eq]
      omega
  refine ⟨_, by simp only [planPublish, hplan]; rfl, ?_⟩
  refine ⟨rfl, fun now => ?_, ?_, ?_, ?_, ?_, ?_⟩
  · refine ⟨rfl, rfl, rfl, ?_, ?_, hwithin, ?_, ?_, ?_, rfl, rfl, rfl⟩
    · exact hperm.length_eq.trans_le hlength
    · exact (UInt32.toNat_ofNat_of_lt' (lt_of_le_of_lt hsum (by decide))).trans_le hsum
    · rw [buildManifest, (hperm.map _).nodup_iff]
      exact hplanned.subkeys_nodup fmt (freeSubkeys_nodup publisher)
        (fun subkey hsubkey hmem => by
          obtain ⟨d, hd, rfl⟩ := List.mem_map.mp hmem
          exact (mem_freeSubkeys.mp hsubkey).2 (current_unavailable hd))
        (currentPages_subkeys_nodup fmt sound) (buckets_distinct fmt entries)
    · rw [buildManifest, (hperm.map _).nodup_iff, hplanned.buckets_eq fmt]
      exact buckets_distinct fmt entries
    · exact (UInt32.toNat_ofNat_of_lt' (lt_of_le_of_lt hsum (by decide))).symm
  · exact (freeSubkeys_nodup publisher).sublist ((hplanned.sublist fmt))
  · intro write hwrite
    exact (hplanned.sublist fmt).subset (List.mem_map_of_mem hwrite)
  · intro write hwrite
    obtain ⟨hdescriptor, bucket, hbucket, subkey, -, heq⟩ := hplanned.of_write fmt hwrite
    refine ⟨hperm.mem_iff.mpr hdescriptor, bucket, hbucket, ?_⟩
    rw [heq]
    rfl
  · exact (hperm.map _).trans (hplanned.buckets_eq fmt ▸ List.Perm.refl _)
  · intro d hd
    exact hplanned.of_descriptor fmt (hperm.mem_iff.mp hd)

/-- Every page of a plan has its contents: those that are kept stay described, the new ones are
made so. -/
theorem PlanSound.manifestSound {plan : PublishPlan} (h : PlanSound fmt publisher entries plan)
    (sound : PublisherSound fmt pages publisher) (now : UInt64) :
    ManifestSound fmt (pages ++ plannedPages fmt publisher entries)
      (buildManifest fmt publisher plan now) := by
  refine ⟨h.valid now, fun descriptor hdescriptor => ?_⟩
  obtain ⟨bucket, hbucket, hplanned⟩ := h.planned descriptor hdescriptor
  cases hplanned with
  | reuse hreuse =>
    obtain ⟨manifest, hcurrent, hmem⟩ := mem_currentPages (reused_of_reusable fmt hreuse).current
    obtain ⟨page, hpage, hdescribes⟩ :=
      (sound.current manifest hcurrent).described descriptor hmem
    exact ⟨page, List.mem_append_left _ hpage, hdescribes⟩
  | fresh subkey _ hdescriptor _ =>
    obtain ⟨-, hkept, hsort⟩ := mem_bucketRecordTableEntries fmt hbucket
    have hfits := bucketEntries_fitting fmt hkept
    rw [← hsort] at hfits
    rw [hdescriptor]
    exact ⟨_, List.mem_append_right _ (List.mem_flatMap.mpr ⟨bucket, hbucket, List.mem_cons_self⟩),
      describes_descriptorOf fmt hfits subkey _⟩

/-- The page of every descriptor of a plan holds the entries of a bucket. -/
theorem PlanSound.contents {plan : PublishPlan} (h : PlanSound fmt publisher entries plan)
    (sound : PublisherSound fmt pages publisher)
    (collisions : NoCollisions fmt (pages ++ plannedPages fmt publisher entries))
    (hdescriptor : descriptor ∈ plan.descriptors) :
    ∃ bucket ∈ bucketRecordTableEntries fmt entries, descriptor.bucket = bucket.1 ∧
      signedPage fmt (pageOf descriptor.generation bucket.1 bucket.2) ∈
        plannedPages fmt publisher entries ∧
      Describes fmt (signedPage fmt (pageOf descriptor.generation bucket.1 bucket.2))
        descriptor := by
  obtain ⟨bucket, hbucket, hplanned⟩ := h.planned descriptor hdescriptor
  refine ⟨bucket, hbucket, ?_⟩
  cases hplanned with
  | reuse hreuse =>
    have hreused := reused_of_reusable fmt hreuse
    exact ⟨hreused.ofBucket, reused_describes fmt sound collisions hbucket hreused⟩
  | fresh subkey _ hdescriptor _ =>
    obtain ⟨-, hkept, hsort⟩ := mem_bucketRecordTableEntries fmt hbucket
    have hfits := bucketEntries_fitting fmt hkept
    rw [← hsort] at hfits
    subst hdescriptor
    exact ⟨rfl, List.mem_flatMap.mpr ⟨bucket, hbucket, List.mem_cons_self⟩,
      describes_descriptorOf fmt hfits subkey _⟩

end Plans

end VeilKnit.WalkTask
