import DTLite.Develop.Darkroom
import DTLite.Develop.Distort
import DTLite.Libs.HistoryUndo
import DTLite.Common.DatabaseLockSafety
import DTLite.Common.LocalCopy
import DTLite.Control.RemoveImages
import DTLite.Control.DeletedFiles
import DTLite.Common.MergePaste
import DTLite.Common.CompressList
import DTLite.Common.MipmapHash
import DTLite.Common.ExifRoundTrip
import DTLite.Common.UndoTimeline
import DTLite.Common.XmpDecode
import DTLite.Common.ExifReadErrors
import DTLite.Common.MipmapRemoval
import DTLite.Common.ImageTimestamps
import DTLite.Develop.PixelpipeCache
import DTLite.Develop.Brush
import DTLite.Common.VariablesSafety
import DTLite.Common.SidecarPath
import DTLite.Common.MetadataExport
import DTLite.Common.ImageFlip
import DTLite.Common.PdfOffsets
import DTLite.Views.ActOn
import DTLite.Common.ImageRemoval
import DTLite.Common.StylesUndo
import DTLite.Control.JobsCancel
import DTLite.Control.JobsPriority
import DTLite.Develop.ModuleInstances
import DTLite.Develop.MasksCleanup
import DTLite.Develop.MasksRemoveEnds
import DTLite.Common.TagPrivate
import DTLite.Common.DarktableTags
import DTLite.Common.VersionsRun
import DTLite.Common.StyleFileRoundTrip
import DTLite.Common.GroupedList
import DTLite.Common.ImageioPfm
import DTLite.Common.Ratings
import DTLite.Develop.Tiling
import DTLite.Common.SelectionRange
import DTLite.Develop.RasterMasks
import DTLite.Common.ExifTags
