import Ducklake.Io.Path
import Ducklake.Io.Ranges

/-!
# Stores

`Path` of `io/path.rs`: the store of a location and its object there.  The paths of objects are
those of the `object_store` crate.
-/

set_option autoImplicit false

namespace Ducklake.Io

open Lib

/-- The functions of `object_store::path::Path`.  `P` are its paths. -/
structure ObjectPaths (P : Type) where
  /-- `Path::parse` -/
  parse : Text → Option P
  /-- `Path::from_absolute_path` -/
  fromAbsolutePath : Text → Option P

inductive Store where
  | local
  | s3 (bucket : Text)
  | gcs (bucket : Text)
  | azure (container : Text)
  deriving DecidableEq

/-- `Path`, by its store. -/
structure StorePath where
  store : Store
  path : Text
  deriving DecidableEq

section

variable {U P : Type} (urls : Urls U) (objects : ObjectPaths P)

namespace StorePath

def inBucket (store : Text → Store) (url : U) : DucklakeResult StorePath :=
  (DucklakePath.unwrap "Url::host_str" (urls.hostStr url)).map fun bucket =>
    { store := store bucket, path := (urls.parts url).path }

def new (url : U) : DucklakeResult StorePath :=
  let scheme := (urls.parts url).scheme
  if scheme = "file".toList then
    (DucklakePath.unwrap "Url::to_file_path" (urls.toFilePath url)).map fun path =>
      { store := .local, path := path }
  else if scheme = "s3".toList then inBucket urls .s3 url
  else if scheme = "gs".toList then inBucket urls .gcs url
  else if scheme = "az".toList ∨ scheme = "abfs".toList then inBucket urls .azure url
  else .error (.unsupportedUrlScheme scheme)

/-- `path` -/
def object (path : StorePath) : DucklakeResult P :=
  match path.store with
  | .local => DucklakePath.unwrap "ObjectStorePath::from_absolute_path"
      (objects.fromAbsolutePath path.path)
  | .s3 _ | .gcs _ | .azure _ => DucklakePath.unwrap "ObjectStorePath::parse"
      (objects.parse path.path)

end StorePath

/-- The URL that `resolve` takes, for a process that runs in the directory. -/
def DucklakePath.resolvedUrl (currentDir : Text) : DucklakePath U → DucklakeResult U
  | .absolute url => .ok url
  | .relative path =>
      DucklakePath.unwrap "Url::from_file_path" (urls.fromFilePath (currentDir ++ '/' :: path))

def DucklakePath.resolve (currentDir : Text) (path : DucklakePath U) : DucklakeResult StorePath :=
  path.resolvedUrl urls currentDir >>= StorePath.new urls

end

end Ducklake.Io
