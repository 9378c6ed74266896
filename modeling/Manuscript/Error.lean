import Manuscript.Archive.Content
import Manuscript.Json.Fault
import Manuscript.Style
import Manuscript.SystemError
import Manuscript.Wordprocessing.Parts
import Manuscript.Xml.Fault
/-!
# Errors

Everything that can go wrong between a source and a document, with its wording. Each error says
which part of the work failed, and carries the fault that part reports.
-/

namespace Manuscript

open Wordprocessing (documentPart)

inductive TransferFault where
  | system (error : SystemError)
  | notText
  | tooLarge
  deriving DecidableEq, Repr

def TransferFault.message : TransferFault → String
  | system error => error.message
  | notText => "stream did not contain valid UTF-8"
  | tooLarge => "Large file option has not been set"

inductive StyleFault where
  | unreadable (report : Json.Report)
  | unfit (fault : Style.Fault)
  deriving Repr

def StyleFault.message : StyleFault → String
  | unreadable report => report.message
  | unfit fault => fault.message

inductive PackageFault where
  | archive (fault : Archive.Fault)
  | missingPart
  | unreadablePart (fault : Archive.StreamFault)
  | largePart (limit : Nat)
  deriving DecidableEq, Repr

def PackageFault.message : PackageFault → String
  | archive fault => "not a valid DOCX package: " ++ fault.message
  | missingPart => "missing " ++ documentPart
  | unreadablePart fault => "failed to read " ++ documentPart ++ ": " ++ fault.message
  | largePart limit => documentPart ++ " exceeds " ++ Text.showNat limit ++ " bytes"

inductive TextSource where
  | input
  | documentPart
  deriving DecidableEq, Repr

def TextSource.title : TextSource → String
  | input => "input is not valid UTF-8"
  | documentPart => Wordprocessing.documentPart

inductive Error where
  | transfer (fault : TransferFault)
  | archive (fault : Archive.Fault)
  | markup (fault : Xml.Fault)
  | style (fault : StyleFault)
  | data (report : Json.Report)
  | unknownFormat
  | unsupportedFormat (extension : String)
  | package (fault : PackageFault)
  | encoding (source : TextSource) (fault : Utf8.Fault)
  | noExtension
  deriving Repr

def Error.message : Error → String
  | transfer fault => "I/O error: " ++ fault.message
  | archive fault => "Archive error: " ++ fault.message
  | markup fault => "XML error: " ++ fault.message
  | style fault => "Invalid configuration: " ++ fault.message
  | data report => "Serialization error: " ++ report.message
  | unknownFormat => "Unknown file format"
  | unsupportedFormat extension => "Unsupported file format: " ++ extension
  | package fault => "Text extraction error: " ++ fault.message
  | encoding source fault => "Encoding error: " ++ source.title ++ ": " ++ fault.message
  | noExtension => "File has no extension"

end Manuscript
