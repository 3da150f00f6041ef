import SchemaTables.Options
import SchemaTables.Path.Relative

/-!
Where the artifacts of a compilation lie, relative to the output directory, and how the documents in
the remote directory refer to them.
-/

namespace SchemaTables

/-- Where the files of a table lie. -/
structure TableLocation where
  className : String
  csvPath : Path
  schemaPath : Path
  metadataPath : Path
deriving DecidableEq, Repr

namespace Options

/-- The table of a class. -/
def csvPath (cls : String) : Path := ⟨cls ++ ".csv"⟩

def remoteFile (o : Options) (fileName : String) : Path := o.remoteDir.join ⟨fileName⟩

def schemaPath (o : Options) (cls : String) : Path := o.remoteFile (cls ++ ".schema.json")

def metadataPath (o : Options) (cls : String) : Path := o.remoteFile (cls ++ ".csv-metadata.json")

def planPath (o : Options) : Path := o.remoteFile "foreign-keys.plan.json"

def makefilePath (o : Options) : Path := o.remoteFile "foreign-keys.mk"

/-- The reference document for readers. -/
def descriptionsPath : Path := ⟨"class-descriptions.md"⟩

/-- The address of a path as seen from a document in the remote directory. -/
def remoteUrl (o : Options) (target : Path) : String := o.remoteDir.relativeUrl target

/-- Where the files of a class lie. -/
def locate (o : Options) (cls : String) : TableLocation :=
  ⟨cls, csvPath cls, o.schemaPath cls, o.metadataPath cls⟩

end Options

end SchemaTables
