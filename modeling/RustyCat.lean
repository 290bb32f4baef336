import RustyCat.Azure.Content
import RustyCat.Binary.Download
import RustyCat.Binary.Outcome
import RustyCat.Client.Guarantees
import RustyCat.Download.Generation
import RustyCat.Download.Operations
import RustyCat.Download.ResumeHeaders
import RustyCat.Download.Validator
import RustyCat.Log.Url
import RustyCat.Oss.Adoption
import RustyCat.Oss.Content
import RustyCat.Oss.Keys
import RustyCat.Presigned.Manifest
import RustyCat.Presigned.RangeProgress
import RustyCat.Scheduler.Records
import RustyCat.System.Finalization
import RustyCat.System.Shutdown
import RustyCat.System.Waiting
import RustyCat.UploadFile.Integrity
import RustyCat.Worker.Memory
import RustyCat.Worker.SerialUpload
import RustyCat.Worker.StopLaw
import RustyCat.Worker.WindowLaw
