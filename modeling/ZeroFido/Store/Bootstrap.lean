import ZeroFido.Store.Index

/-!
# Startup of the credential store

`store/recovery.c` and `store/bootstrap.c`: the clean-up of what interrupted writes left in the data
directory, the rebuilding of the index from the record files, and the removal of everything on a
reset.

A directory is read in the order in which the file system lists it. The listing is an input of the
program, one for each time a directory is opened; there is none when opening fails. Names are short
enough for the path buffers.
-/

set_option autoImplicit false
set_option relaxedAutoImplicit false

namespace ZeroFido.Store

open Foundations Storage

section Operations

variable {Event : Type} (crypto : Crypto)

/-- What `storage_dir_read` gives for one entry. -/
structure DirEntry where
  name : Path
  isDir : Bool := false
  deriving DecidableEq, Repr

/-- What a directory lists when it is opened; nothing when it cannot be opened. -/
abbrev Listing := Option (List DirEntry)

/-- The loop of `zf_storage_for_each_dir_entry`. -/
def visitDirEntries (visitor : DirEntry → Program (World Event) Bool) :
    List DirEntry → Program (World Event) Bool
  | [] => return true
  | entry :: rest => do
    if !(← visitor entry) then
      return false
    visitDirEntries visitor rest

/-- `zf_storage_for_each_dir_entry` of the data directory. -/
def forEachDirEntry (visitor : DirEntry → Program (World Event) Bool) (listing : Listing) :
    Program (World Event) Bool :=
  match listing with
  | none => return false
  | some entries => visitDirEntries visitor entries

/-- `zf_storage_remove_suffix_visitor`. -/
def removeSuffixVisitor (suffix : Path) (entry : DirEntry) : Program (World Event) Bool :=
  if entry.isDir || !hasSuffix entry.name suffix then
    return true
  else
    removeOptional (childPath entry.name)

/-- `zf_store_recovery_recover_record_backup`. -/
def recoveryRecoverRecordBackup (fileName : Path) (backup : Path) :
    Program (World Event) Bool := do
  if ← fileExists (childPath fileName) then
    if (← recordFormatLoadIndex crypto fileName).isSome then
      return ← removeOptional backup
  if !(← removeOptional (childPath fileName)) then
    return false
  rename backup (childPath fileName)

/-- `zf_store_recovery_recover_counter_backup`. -/
def recoveryRecoverCounterBackup (fileName : Path) : Program (World Event) Bool :=
  recoverAtomicFile (counterFloorPath fileName) (counterFloorTempPath fileName)

/-- `zf_store_recovery_cleanup_visitor`. -/
def recoveryCleanupVisitor (entry : DirEntry) : Program (World Event) Bool :=
  if entry.isDir || !hasSuffix entry.name ".bak".toList then
    return true
  else
    let fileName := entry.name.take (entry.name.length - 4)
    if isRecordName fileName then
      recoveryRecoverRecordBackup crypto fileName (childPath entry.name)
    else if hasSuffix fileName ".counter".toList then
      let recordName := fileName.take (fileName.length - 8)
      if isRecordName recordName then
        recoveryRecoverCounterBackup recordName
      else
        return true
    else
      return true

/-- `zf_store_recovery_cleanup_temp_files_with_buffer`. Its callers do not look at the results. -/
def recoveryCleanupTempFiles (temporary backups : Listing) : Program (World Event) Unit := do
  let _ ← forEachDirEntry (removeSuffixVisitor ".tmp".toList) temporary
  let _ ← forEachDirEntry (recoveryCleanupVisitor crypto) backups

/-- `zf_store_bootstrap_index_visitor` over the entries of the directory. -/
def bootstrapIndex (store : CredentialStore) :
    List DirEntry → Program (World Event) CredentialStore
  | [] => return store
  | entry :: rest => do
    if entry.isDir || !isRecordName entry.name || maxCredentials ≤ store.length then
      bootstrapIndex store rest
    else
      match ← recordFormatLoadIndex crypto entry.name with
      | none => bootstrapIndex store rest
      | some indexEntry => bootstrapIndex (store ++ [indexEntry]) rest

/-- What the data directory lists during one startup. -/
structure StartupListings where
  temporary : Listing
  backups : Listing
  records : Listing

/-- `zf_store_bootstrap_init_with_buffer`: whether it succeeded, and the index. -/
def bootstrapInit (listings : StartupListings) :
    Program (World Event) (Bool × CredentialStore) := do
  if !(← ensureAppDataDir) then
    return (false, [])
  recoveryCleanupTempFiles crypto listings.temporary listings.backups
  match listings.records with
  | none => return (false, [])
  | some entries => return (true, ← bootstrapIndex crypto [] entries)

/-- `zf_storage_remove_optional_paths`. -/
def removeOptionalPaths : List Path → Program (World Event) Bool
  | [] => return true
  | path :: rest => removeOptional path <&&> removeOptionalPaths rest

/-- `zf_store_bootstrap_wipe_visitor`. -/
def bootstrapWipeVisitor (entry : DirEntry) : Program (World Event) Bool :=
  if entry.isDir then return true else removeOptional (childPath entry.name)

/-- The files `zf_store_bootstrap_wipe_app_data` removes first. -/
def pinPathsToWipe : List Path :=
  [childPath "client_pin.bin".toList, childPath "client_pin.tmp".toList,
    childPath "client_pin_v2.bin".toList, childPath "client_pin_v2.tmp".toList]

/-- `zf_store_bootstrap_wipe_app_data`. -/
def bootstrapWipeAppData (listing : Listing) : Program (World Event) Bool := do
  if !(← ensureAppDataDir) then
    return false
  if !(← removeOptionalPaths pinPathsToWipe) then
    return false
  forEachDirEntry bootstrapWipeVisitor listing

end Operations

end ZeroFido.Store
